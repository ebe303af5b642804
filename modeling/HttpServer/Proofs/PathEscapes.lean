import HttpServer.Proofs.Utf8Pieces
import HttpServer.Url.Percent

/-!
# Paths with escapes

Bytes are read piece by piece, and what follows a piece has no say in how it is cut (`Percent.pieces_plain`,
`Percent.pieces_escape`, `Percent.pieces_stray`).

A path is written with escapes and read back as it was (`Percent.decode?_encodePath`), byte by byte: a byte is written
as itself or as an escape, and either is read as one piece that stands for it.

A written path has no delimiter of a target in it (`Percent.ne_of_mem_encodePath`), and the slash in front of a path is
neither lost by writing nor by reading.
-/

namespace HttpServer.Percent

/-! ## Pieces -/

/-- What was found before stays behind what is found now. -/
theorem Scan.push_eq (s : Scan) (b : UInt8) :
    s.push b = ⟨(Scan.push ⟨[], s.pending⟩ b).done ++ s.done, (Scan.push ⟨[], s.pending⟩ b).pending⟩ := by
  obtain ⟨done, pending⟩ := s
  have hStart : ∀ front : List Piece, Scan.start (front ++ done) b =
      ⟨(Scan.start front b).done ++ done, (Scan.start front b).pending⟩ := by
    intro front
    unfold Scan.start
    split <;> rfl
  cases pending with
  | nothing => exact hStart []
  | sign =>
    cases hDigit : hexValue? b with
    | none => simpa [Scan.push, hDigit] using hStart [.stray]
    | some high => simp [Scan.push, hDigit]
  | digit d high =>
    cases hDigit : hexValue? b with
    | none => simpa [Scan.push, hDigit] using hStart [.plain d, .stray]
    | some low => simp [Scan.push, hDigit]

theorem finish_foldl_push (bs : Bytes) (s : Scan) :
    (bs.foldl Scan.push s).finish = s.done.reverse ++ (bs.foldl Scan.push ⟨[], s.pending⟩).finish := by
  induction bs generalizing s with
  | nil =>
    obtain ⟨done, pending⟩ := s
    cases pending <;> simp [Scan.finish]
  | cons b bs ih =>
    rw [List.foldl_cons, List.foldl_cons, Scan.push_eq, ih, ih (Scan.push ⟨[], s.pending⟩ b)]
    simp

/-- Where no escape is open, what is read next does not depend on what was found. -/
theorem finish_foldl_push_nothing (bs : Bytes) (done : List Piece) :
    (bs.foldl Scan.push ⟨done, .nothing⟩).finish = done.reverse ++ pieces bs :=
  finish_foldl_push bs ⟨done, .nothing⟩

theorem pieces_plain {b : UInt8} (h : b ≠ 0x25) (bs : Bytes) : pieces (b :: bs) = .plain b :: pieces bs := by
  have hPush : Scan.push {} b = ⟨[.plain b], .nothing⟩ := by simp [Scan.push, Scan.start, h]
  rw [pieces, List.foldl_cons, hPush, finish_foldl_push_nothing]
  rfl

theorem pieces_escape {first second high low : UInt8} (hHigh : hexValue? first = some high)
    (hLow : hexValue? second = some low) (bs : Bytes) :
    pieces (0x25 :: first :: second :: bs) = .escaped (high * 16 + low) :: pieces bs := by
  have hPush : [0x25, first, second].foldl Scan.push {} = ⟨[.escaped (high * 16 + low)], .nothing⟩ := by
    simp [Scan.push, Scan.start, hHigh, hLow]
  change (bs.foldl Scan.push ([0x25, first, second].foldl Scan.push {})).finish = _
  rw [hPush, finish_foldl_push_nothing]
  rfl

theorem ne_sign_of_hexValue? {b value : UInt8} (h : hexValue? b = some value) : b ≠ 0x25 := by
  have hSign : hexValue? 0x25 = none := by decide
  rintro rfl
  simp [hSign] at h

/-- A sign that two digits do not follow is stray, and what follows it is read as if it stood alone. -/
theorem pieces_stray {bs : Bytes} (h : ∀ first second rest, bs = first :: second :: rest →
      hexValue? first = none ∨ hexValue? second = none) : pieces (0x25 :: bs) = .stray :: pieces bs := by
  change (bs.foldl Scan.push ⟨[], .sign⟩).finish = _
  match bs with
  | [] => rfl
  | first :: rest =>
    cases hFirst : hexValue? first with
    | none =>
      have hPush : Scan.push ⟨[], .sign⟩ first = Scan.push ⟨[.stray], .nothing⟩ first := by
        simp [Scan.push, hFirst]
      rw [List.foldl_cons, hPush, ← List.foldl_cons, finish_foldl_push_nothing]
      rfl
    | some high =>
      have hPush : Scan.push ⟨[], .sign⟩ first = ⟨[], .digit first high⟩ := by simp [Scan.push, hFirst]
      rw [pieces_plain (ne_sign_of_hexValue? hFirst), List.foldl_cons, hPush]
      match rest with
      | [] => rfl
      | second :: more =>
        have hSecond : hexValue? second = none := by simpa [hFirst] using h first second more rfl
        have hPush : Scan.push ⟨[], .digit first high⟩ second = Scan.push ⟨[.plain first, .stray], .nothing⟩ second := by
          simp [Scan.push, hSecond]
        rw [List.foldl_cons, hPush, ← List.foldl_cons, finish_foldl_push_nothing]
        rfl

/-! ## One byte -/

theorem encodeChar_hexDigit (n : Nat) (h : n < 16) :
    String.utf8EncodeChar (hexDigit n) = [UInt8.ofNat (hexDigit n).toNat] := by
  revert n
  decide

theorem hexValue?_hexDigit (n : Nat) (h : n < 16) :
    hexValue? (UInt8.ofNat (hexDigit n).toNat) = some (UInt8.ofNat n) := by
  revert n
  decide

theorem ofNat_halves (b : UInt8) : UInt8.ofNat (b.toNat / 16) * 16 + UInt8.ofNat (b.toNat % 16) = b := by
  have hByte := b.toNat_lt
  apply UInt8.toNat_inj.mp
  simp only [UInt8.toNat_add, UInt8.toNat_mul, UInt8.toNat_ofNat']
  simp
  omega

theorem halves_lt (b : UInt8) : b.toNat / 16 < 16 ∧ b.toNat % 16 < 16 := by
  have hByte := b.toNat_lt
  omega

/-- A sign and the two digits of a byte are read as its escape, whatever follows. -/
theorem pieces_encode_escape {b first second : UInt8} {high low : Char}
    (hHigh : String.utf8EncodeChar high = [first]) (hLow : String.utf8EncodeChar low = [second])
    (hFirst : hexValue? first = some (UInt8.ofNat (b.toNat / 16)))
    (hSecond : hexValue? second = some (UInt8.ofNat (b.toNat % 16))) (rest : Bytes) :
    pieces (Utf8.encode ['%', high, low] ++ rest) = .escaped b :: pieces rest := by
  have hSign : String.utf8EncodeChar '%' = [0x25] := by decide
  have hBytes : Utf8.encode ['%', high, low] ++ rest = 0x25 :: first :: second :: rest := by
    simp [Utf8.encode, hSign, hHigh, hLow]
  rw [hBytes, pieces_escape hFirst hSecond, ofNat_halves]

/-- A byte that is written is read as one piece, whatever follows. -/
theorem pieces_encodePathByte (b : UInt8) (rest : Bytes) :
    ∃ piece : Piece, piece.strictByte? = some b ∧
      pieces (Utf8.encode (encodePathByte b) ++ rest) = piece :: pieces rest := by
  by_cases hPath : isPathByte b = true
  · have hLow : b.toNat < 0x80 := by
      simp only [isPathByte, Bool.and_eq_true, decide_eq_true_eq] at hPath
      exact UInt8.lt_iff_toNat_lt.mp hPath.1
    have hSign : b ≠ 0x25 := by
      rintro rfl
      exact absurd hPath (by decide)
    have hBytes : Utf8.encode (encodePathByte b) = [b] := by
      simp [encodePathByte, hPath, Utf8.encode, Utf8.encodeChar_single hLow]
    exact ⟨.plain b, rfl, by rw [hBytes, List.singleton_append, pieces_plain hSign]⟩
  · have hChars : encodePathByte b = ['%', hexDigit (b.toNat / 16), hexDigit (b.toNat % 16)] := by
      simp [encodePathByte, hPath]
    obtain ⟨hHigh, hLow⟩ := halves_lt b
    refine ⟨.escaped b, rfl, ?_⟩
    rw [hChars]
    exact pieces_encode_escape (encodeChar_hexDigit _ hHigh) (encodeChar_hexDigit _ hLow)
      (hexValue?_hexDigit _ hHigh) (hexValue?_hexDigit _ hLow) rest

/-! ## A path -/

/-- The induction is on the bytes of the path; each is one more piece. -/
theorem mapM_pieces_encodePath (bs : Bytes) :
    (pieces (Utf8.encode (bs.flatMap encodePathByte))).mapM Piece.strictByte? = some bs := by
  induction bs with
  | nil => rfl
  | cons b bs ih =>
    obtain ⟨piece, hByte, hPieces⟩ := pieces_encodePathByte b (Utf8.encode (bs.flatMap encodePathByte))
    rw [List.flatMap_cons, Utf8.encode_append, hPieces, List.mapM_cons, hByte, ih]
    rfl

/-- A path that is written and read is the path. -/
theorem decode?_encodePath (path : String) : decode? (encodePath path) = some path := by
  have hBytes : (pieces (Utf8.ofText (encodePath path))).mapM Piece.strictByte? = some (Utf8.ofText path) := by
    rw [encodePath, Utf8.ofText, String.toList_ofList, mapM_pieces_encodePath]
  simp [decode?, hBytes, Utf8.toText?_ofText]

/-- No question mark and no number sign is written in a path. -/
theorem ne_of_mem_encodePath {path : String} {c : Char} (h : c ∈ (encodePath path).toList) : c ≠ '?' ∧ c ≠ '#' := by
  have hBytes : (List.range 256).all (fun n => (encodePathByte (UInt8.ofNat n)).all fun c => c != '?' && c != '#') := by
    decide +kernel
  simp only [encodePath, String.toList_ofList, List.mem_flatMap] at h
  obtain ⟨b, -, hMem⟩ := h
  have hByte := List.all_eq_true.mp hBytes b.toNat (List.mem_range.mpr b.toNat_lt)
  rw [UInt8.ofNat_toNat] at hByte
  simpa using List.all_eq_true.mp hByte c hMem

theorem encodePath_empty : encodePath "" = "" :=
  rfl

/-- The slash in front of a path stands for itself. -/
theorem head?_encodePath {path : String} (h : path.toList.head? = some '/') :
    (encodePath path).toList.head? = some '/' := by
  obtain ⟨rest, hPath⟩ := List.head?_eq_some_iff.mp h
  have hSlash : Utf8.encode ('/' :: rest) = 0x2F :: Utf8.encode rest := rfl
  have hByte : encodePathByte 0x2F = ['/'] := by decide
  simp [encodePath, Utf8.ofText, hPath, hSlash, hByte]

/-! ## The slash in front -/

/-- A text begins with a slash if its bytes do. -/
theorem head?_of_ofText {text : String} {rest : Bytes} (h : Utf8.ofText text = 0x2F :: rest) :
    text.toList.head? = some '/' := by
  unfold Utf8.ofText at h
  cases hText : text.toList with
  | nil => simp [hText, Utf8.encode] at h
  | cons c cs =>
    have hFirst : (0x2F : UInt8) ∈ Utf8.encode [c] := by
      obtain ⟨b, more, hChar⟩ := List.exists_cons_of_ne_nil (String.utf8EncodeChar_ne_nil (c := c))
      rw [hText, ← List.singleton_append, Utf8.encode_append] at h
      simp only [Utf8.encode, List.flatMap_cons, List.flatMap_nil, List.append_nil, hChar, List.cons_append,
        List.cons.injEq] at h ⊢
      simp [h.1]
    have hSlash := Utf8.mem_of_mem_encode (by decide) hFirst
    simpa [eq_comm] using hSlash

/-- A path that was read still has the slash in front. -/
theorem head?_of_decode? {raw path : String} (h : decode? raw = some path) (hSlash : raw.toList.head? = some '/') :
    path.toList.head? = some '/' := by
  obtain ⟨rest, hRaw⟩ := List.head?_eq_some_iff.mp hSlash
  have hBytes : Utf8.ofText raw = 0x2F :: Utf8.encode rest := by
    rw [Utf8.ofText, hRaw]
    rfl
  have hRead : pieces (Utf8.ofText raw) = .plain 0x2F :: pieces (Utf8.encode rest) := by
    rw [hBytes, pieces_plain (by decide)]
  unfold decode? at h
  simp only [hRead, List.mapM_cons, Piece.strictByte?, Option.bind_eq_bind, Option.bind_some] at h
  cases hMore : (pieces (Utf8.encode rest)).mapM Piece.strictByte? with
  | none => simp [hMore] at h
  | some bytes =>
    simp only [hMore, Option.bind_some, Option.pure_def] at h
    exact head?_of_ofText (Utf8.ofText_of_toText? h)

end HttpServer.Percent
