import HttpServer.Proofs.Framing

/-!
# Two readers of header blocks

`parseHeaders` cuts a block in memory at its line feeds and stops at the first empty line.
`Connection.readHeaderBlock` takes one line after the other off a connection, without knowing where the next one
begins.  Where an empty line ends the block they agree (`Connection.readHeaderBlock_eq_parseHeaders`): on the fields,
on the error if there is one, and on where the block ends.

A carriage return belongs to the end of a line only where a line feed follows it, and then only one does.  So the two
ways to write the empty line are the only ones (`stripReturn_eq_nil_iff`).
-/

namespace HttpServer

/-! ## Bytes as lines -/

theorem linesOf_of_not_mem {raw : Bytes} (h : lineFeed ∉ raw) : linesOf raw = [stripReturn raw] := by
  have hSplit : splitOn lineFeed raw = [raw] := by
    induction raw with
    | nil => rfl
    | cons b raw ih =>
      have hb : b ≠ lineFeed := fun hEq => h (by simp [hEq])
      have hRest := ih fun hMem => h (by simp [hMem])
      simp only [splitOn, List.cons.injEq] at hRest
      rw [splitOn, splitParts_cons_of_ne hb, hRest.1, hRest.2]
  simp [linesOf, hSplit]

/-- Bytes are lines with a line feed behind each, and what follows the last line feed. -/
theorem exists_unlines (bytes : Bytes) :
    ∃ raws last, bytes = unlines raws ++ last ∧ (∀ raw ∈ raws, lineFeed ∉ raw) ∧ lineFeed ∉ last := by
  cases hCut : cutFirst lineFeed bytes with
  | none => exact ⟨[], bytes, by simp, by simp, cutFirst_eq_none_iff.mp hCut⟩
  | some parts =>
    obtain ⟨raw, rest⟩ := parts
    obtain ⟨rfl, hRaw⟩ := cutFirst_eq_some_iff.mp hCut
    obtain ⟨raws, last, hRest, hRaws, hLast⟩ := exists_unlines rest
    refine ⟨raw :: raws, last, by simp [← hRest], ?_, hLast⟩
    simpa using ⟨hRaw, hRaws⟩
termination_by bytes.length
decreasing_by
  simp_all only [List.length_append, List.length_cons]
  omega

theorem stripReturn_eq_nil_iff {raw : Bytes} : stripReturn raw = [] ↔ raw = [] ∨ raw = [carriageReturn] := by
  rw [stripReturn_eq_iff, List.nil_append, or_comm]
  constructor
  · rintro (⟨hNil, -⟩ | hReturn)
    · exact .inl hNil
    · exact .inr hReturn
  · rintro (rfl | rfl)
    · exact .inl ⟨rfl, by simp⟩
    · exact .inr rfl

/-! ## Where a block ends -/

/-- The bytes are some lines that are not empty, an empty line, and a rest.  Lines stand as they are before their line
feed. -/
structure BlockSplit (bytes : Bytes) (raws : List Bytes) (blank rest : Bytes) : Prop where
  bytes_eq : bytes = unlines raws ++ blank ++ lineFeed :: rest
  noFeed : ∀ raw ∈ raws, lineFeed ∉ raw
  ne_nil : ∀ raw ∈ raws, stripReturn raw ≠ []
  blank : blank = [] ∨ blank = [carriageReturn]

variable {bytes blank rest : Bytes} {raws : List Bytes}

/-- Bytes in which some line is empty and has its line feed can be split at the first such line. -/
theorem exists_blockSplit (h : [] ∈ (linesOf bytes).dropLast) :
    ∃ raws blank rest, BlockSplit bytes raws blank rest := by
  obtain ⟨all, last, rfl, hFeeds, hLast⟩ := exists_unlines bytes
  rw [linesOf_unlines hFeeds, linesOf_of_not_mem hLast, List.dropLast_concat] at h
  have hSome : (all.find? fun raw => (stripReturn raw).isEmpty).isSome := by
    obtain ⟨raw, hRaw, hBlank⟩ := List.mem_map.mp h
    exact List.find?_isSome.mpr ⟨raw, hRaw, by simp [hBlank]⟩
  obtain ⟨blank, hFind⟩ := Option.isSome_iff_exists.mp hSome
  obtain ⟨hBlank, raws, later, rfl, hRaws⟩ := List.find?_eq_some_iff_append.mp hFind
  refine ⟨raws, blank, unlines later ++ last, by simp, ?noFeed, ?ne_nil, ?blank⟩
  case noFeed => exact fun raw hRaw => hFeeds raw (by simp [hRaw])
  case ne_nil => exact fun raw hRaw => by simpa using hRaws raw hRaw
  case blank => exact stripReturn_eq_nil_iff.mp (by simpa using hBlank)

namespace BlockSplit

theorem isBlankLine (h : BlockSplit bytes raws blank rest) : IsBlankLine blank := by
  rcases h.blank with rfl | rfl
  · exact ⟨by simp, rfl⟩
  · exact ⟨by decide, rfl⟩

/-- The lines in front of the empty line are the lines of the block. -/
theorem takeWhile_linesOf (h : BlockSplit bytes raws blank rest) :
    (linesOf bytes).takeWhile (!·.isEmpty) = raws.map stripReturn := by
  have hLines : linesOf bytes = raws.map stripReturn ++ [] :: linesOf rest := by
    rw [h.bytes_eq, List.append_assoc, linesOf_unlines h.noFeed, linesOf_line h.isBlankLine.noFeed,
      h.isBlankLine.blank]
  have hFields : [] ∉ raws.map stripReturn := by simpa using h.ne_nil
  rw [hLines, takeWhile_append_nil_cons hFields]

theorem parseHeaders_eq (h : BlockSplit bytes raws blank rest) (maxSize : Nat) :
    parseHeaders bytes maxSize = (HeaderBlock.pushAll { maxSize } (raws.map stripReturn)).map (·.headers) := by
  rw [parseHeaders, h.takeWhile_linesOf]

end BlockSplit

/-! ## Line by line -/

namespace Connection

variable {c c' : Connection} {limits : Limits} {block : HeaderBlock} {raw : Bytes}

/-- A line that has its line feed and is within its ceiling comes off the front. -/
theorem readBoundedLine_of_line {which : Limit} {limit : Nat} (hBytes : c.remaining = raw ++ lineFeed :: rest)
    (hFeed : lineFeed ∉ raw) (hFits : (stripReturn raw).length ≤ limit) :
    ∃ c', c.readBoundedLine which limit = (.ok (stripReturn raw), c') ∧ c'.remaining = rest := by
  have hLine : takeLine which limit c.inbound.ending c.remaining = .ok (stripReturn raw, rest) :=
    takeLine_eq_ok_iff.mpr ⟨raw, hBytes, hFeed, rfl, hFits⟩
  rw [← outcome_readBoundedLine] at hLine
  rcases hRead : c.readBoundedLine which limit with ⟨_ | line, c'⟩
  · simp [hRead, outcome] at hLine
  · simp only [hRead, outcome, Except.ok.injEq, Prod.mk.injEq] at hLine
    exact ⟨c', by rw [hLine.1], hLine.2⟩

theorem readHeaderBlock_of_blank (h : c.readBoundedLine .headerLine limits.headerLine = (.ok [], c')) :
    c.readHeaderBlock limits block = (.ok block.headers, c') := by
  rw [readHeaderBlock]
  split <;> simp_all

theorem readHeaderBlock_of_line {line : Bytes}
    (h : c.readBoundedLine .headerLine limits.headerLine = (.ok line, c')) (hLine : line ≠ []) :
    c.readHeaderBlock limits block =
      match block.push line with
      | (.error e, _) => (.error e, c')
      | (.ok (), block) => c'.readHeaderBlock limits block := by
  obtain ⟨b, line, rfl⟩ := List.exists_cons_of_ne_nil hLine
  rw [readHeaderBlock]
  split
  · simp_all
  · simp_all
  · rename_i hRead
    rw [h] at hRead
    cases hRead
    rfl

/-- The lines of a block are pushed one by one, and what is left stands behind the last of them that was read. -/
theorem readHeaderBlock_unlines (hBytes : c.remaining = unlines raws ++ blank ++ lineFeed :: rest)
    (hRaws : ∀ raw ∈ raws, IsFieldLine limits raw) (hBlank : IsBlankLine blank) :
    (c.readHeaderBlock limits block).1 = (block.pushAll (raws.map stripReturn)).map (·.headers) ∧
      (∀ headers, (c.readHeaderBlock limits block).1 = .ok headers →
        (c.readHeaderBlock limits block).2.remaining = rest) ∧
      ∀ e, (c.readHeaderBlock limits block).1 = .error e → ∃ front raw back,
        raws = front ++ raw :: back ∧ block.StopsAt (front.map stripReturn) (stripReturn raw) e ∧
          (c.readHeaderBlock limits block).2.remaining = unlines back ++ blank ++ lineFeed :: rest := by
  induction raws generalizing c block with
  | nil =>
    obtain ⟨c', hLine, hRest⟩ : ∃ c', c.readBoundedLine .headerLine limits.headerLine = (.ok (stripReturn blank), c') ∧
        c'.remaining = rest :=
      readBoundedLine_of_line (by simpa using hBytes) hBlank.noFeed (by simp [hBlank.blank])
    rw [hBlank.blank] at hLine
    rw [readHeaderBlock_of_blank hLine]
    exact ⟨rfl, fun _ _ => hRest, by simp⟩
  | cons raw raws ih =>
    have hRaw : IsFieldLine limits raw := hRaws raw (by simp)
    obtain ⟨c', hLine, hRest⟩ : ∃ c', c.readBoundedLine .headerLine limits.headerLine = (.ok (stripReturn raw), c') ∧
        c'.remaining = unlines raws ++ blank ++ lineFeed :: rest :=
      readBoundedLine_of_line (by simpa using hBytes) hRaw.noFeed hRaw.fits
    rw [readHeaderBlock_of_line hLine hRaw.ne_nil, List.map_cons, HeaderBlock.pushAll]
    rcases hPush : block.push (stripReturn raw) with ⟨e | _, block₁⟩
    · refine ⟨rfl, by simp, fun e' hError => ⟨[], raw, raws, rfl, ⟨block, rfl, ?_⟩, hRest⟩⟩
      rw [hPush]
      simpa using hError
    · obtain ⟨hSame, hOk, hStop⟩ := @ih c' block₁ hRest fun r hr => hRaws r (by simp [hr])
      refine ⟨hSame, hOk, fun e hError => ?_⟩
      obtain ⟨front, last, back, rfl, ⟨before, hFront, hLast⟩, hLeft⟩ := hStop e hError
      refine ⟨raw :: front, last, back, rfl, ⟨before, ?_, hLast⟩, hLeft⟩
      rw [List.map_cons, HeaderBlock.pushAll_cons_eq_ok_iff]
      exact ⟨block₁, hPush, hFront⟩

/-- **Two readers of header blocks agree.**  Some line of the bytes is empty and has its line feed, and the lines in
front of the first such line are within the ceiling for lines.  Then a connection on which these bytes arrive, in
whatever pieces, yields the fields that are read off the bytes in memory, or the same error.  With the fields it has
used up the empty line and nothing behind it; with an error it has stopped behind the line that was refused. -/
theorem readHeaderBlock_eq_parseHeaders (bytes : Bytes) (limits : Limits) (c : Connection)
    (hBytes : c.remaining = bytes) (hEnds : [] ∈ (linesOf bytes).dropLast)
    (hFits : ∀ line ∈ (linesOf bytes).takeWhile (!·.isEmpty), line.length ≤ limits.headerLine) :
    let block : HeaderBlock := { maxSize := limits.headerBlock }
    let read := c.readHeaderBlock limits block
    read.1 = parseHeaders bytes limits.headerBlock ∧
      (∃ raws blank rest, BlockSplit bytes raws blank rest) ∧
      ∀ raws blank rest, BlockSplit bytes raws blank rest →
        (∀ headers, read.1 = .ok headers → read.2.remaining = rest) ∧
        ∀ e, read.1 = .error e → ∃ front raw back,
          raws = front ++ raw :: back ∧ block.StopsAt (front.map stripReturn) (stripReturn raw) e ∧
            read.2.remaining = unlines back ++ blank ++ lineFeed :: rest := by
  intro block read
  -- Whichever way the bytes are split, they are read line by line.
  have hRead : ∀ raws blank rest, BlockSplit bytes raws blank rest →
      read.1 = (block.pushAll (raws.map stripReturn)).map (·.headers) ∧
        (∀ headers, read.1 = .ok headers → read.2.remaining = rest) ∧
        ∀ e, read.1 = .error e → ∃ front raw back,
          raws = front ++ raw :: back ∧ block.StopsAt (front.map stripReturn) (stripReturn raw) e ∧
            read.2.remaining = unlines back ++ blank ++ lineFeed :: rest := by
    intro raws blank rest hSplit
    rw [hSplit.takeWhile_linesOf] at hFits
    have hFields : ∀ raw ∈ raws, IsFieldLine limits raw := fun raw hRaw =>
      ⟨hSplit.noFeed raw hRaw, hSplit.ne_nil raw hRaw, hFits _ (List.mem_map_of_mem hRaw)⟩
    exact readHeaderBlock_unlines (hBytes.trans hSplit.bytes_eq) hFields hSplit.isBlankLine
  obtain ⟨raws, blank, rest, hSplit⟩ := exists_blockSplit hEnds
  refine ⟨?_, ⟨raws, blank, rest, hSplit⟩, fun raws blank rest hSplit => (hRead raws blank rest hSplit).2⟩
  rw [(hRead raws blank rest hSplit).1, hSplit.parseHeaders_eq]

/-- A field with a continuation, cut at its carriage returns, and a block with a line that is no field. -/
theorem readHeaderBlock_cut_at_returns :
    let folded : Connection := { inbound := { chunks := ["A: b\r", "\n c\n\r", "\nrest"].map Utf8.ofText } }
    let broken : Connection := { inbound := { chunks := ["A: b\nbad\n\nrest"].map Utf8.ofText } }
    (folded.readHeaderBlock {} { maxSize := 1048576 }).1 = .ok { fields := [("A", "b c")] } ∧
      (folded.readHeaderBlock {} { maxSize := 1048576 }).2.remaining = Utf8.ofText "rest" ∧
      (broken.readHeaderBlock {} { maxSize := 1048576 }).1 = .error (.parse (.malformedHeader "bad")) ∧
      parseHeaders (Utf8.ofText "A: b\nbad\n\nrest") 1048576 = .error (.parse (.malformedHeader "bad")) := by
  intro folded broken
  have hFolded : parseHeaders folded.remaining 1048576 = .ok { fields := [("A", "b c")] } := by cbv
  have hBroken : parseHeaders broken.remaining 1048576 = .error (.parse (.malformedHeader "bad")) := by cbv
  have hSplit : BlockSplit folded.remaining [Utf8.ofText "A: b\r", Utf8.ofText " c"] [carriageReturn]
      (Utf8.ofText "rest") :=
    ⟨by decide, by decide, by decide, by decide⟩
  obtain ⟨hSame, -, hLeft⟩ := readHeaderBlock_eq_parseHeaders folded.remaining {} folded rfl (by decide) (by decide)
  obtain ⟨hSame', -, -⟩ := readHeaderBlock_eq_parseHeaders broken.remaining {} broken rfl (by decide) (by decide)
  have hFields := hSame.trans hFolded
  exact ⟨hFields, (hLeft _ _ _ hSplit).1 _ hFields, hSame'.trans hBroken, hBroken⟩

end Connection
end HttpServer
