import HttpServer.Proofs.PathEscapes

/-!
# The strict and the lenient reader of escapes

Either reader goes through the bytes of a text from left to right and looks two bytes ahead of each percent sign.
`Percent.StrictScan` says where the strict one can come to and what it has decoded on the way: it does not get past a
sign that two digits do not follow.  `Percent.LenientScan` says the same of the lenient one, for which such a sign stands
for itself and the byte behind it is read next.

`Percent.pieces` looks at each byte once, with an unfinished escape in hand, and cuts the bytes where the scans do: from
the offset that a scan has come to, it goes on as if the bytes began there (`StrictScan.pieces`, `LenientScan.pieces`).

So a text is read strictly when the scan comes to its end with UTF-8, and only then (`Percent.decode?_eq_some_iff`).
The lenient scan always comes to the end, and what it has decoded there is read (`Percent.decodeForm_eq_iff`).  Where no
plus sign stands, the lenient scan comes wherever the strict one does, and the two readers agree
(`Percent.readers_agree`).
-/

namespace HttpServer
namespace Percent

/-- The byte of an escape with its sign at offset `i`, if two digits stand behind this offset. -/
def escapeAt? (bs : Bytes) (i : Nat) : Option UInt8 := do
  let high ← hexValue? (← bs[i + 1]?)
  let low ← hexValue? (← bs[i + 2]?)
  return high * 16 + low

/-- A sign stands at offset `i`, and two digits do not follow it. -/
def IsStrayAt (bs : Bytes) (i : Nat) : Prop :=
  bs[i]? = some 0x25 ∧ escapeAt? bs i = none

/-- The strict reader comes to offset `i` of `bs`, with `out` decoded from what lies before. -/
inductive StrictScan (bs : Bytes) : Nat → Bytes → Prop
  | start : StrictScan bs 0 []
  | plain {i : Nat} {out : Bytes} {b : UInt8} (h : StrictScan bs i out) (hByte : bs[i]? = some b)
      (hSign : b ≠ 0x25) : StrictScan bs (i + 1) (out ++ [b])
  | escape {i : Nat} {out : Bytes} {b : UInt8} (h : StrictScan bs i out) (hSign : bs[i]? = some 0x25)
      (hEscape : escapeAt? bs i = some b) : StrictScan bs (i + 3) (out ++ [b])

/-- The lenient reader comes to offset `i` of `bs`, with `out` decoded from what lies before. -/
inductive LenientScan (bs : Bytes) : Nat → Bytes → Prop
  | start : LenientScan bs 0 []
  | plain {i : Nat} {out : Bytes} {b : UInt8} (h : LenientScan bs i out) (hByte : bs[i]? = some b)
      (hSign : b ≠ 0x25) (hPlus : b ≠ 0x2B) : LenientScan bs (i + 1) (out ++ [b])
  | plus {i : Nat} {out : Bytes} (h : LenientScan bs i out) (hPlus : bs[i]? = some 0x2B) :
      LenientScan bs (i + 1) (out ++ [0x20])
  | escape {i : Nat} {out : Bytes} {b : UInt8} (h : LenientScan bs i out) (hSign : bs[i]? = some 0x25)
      (hEscape : escapeAt? bs i = some b) : LenientScan bs (i + 3) (out ++ [b])
  | stray {i : Nat} {out : Bytes} (h : LenientScan bs i out) (hStray : IsStrayAt bs i) :
      LenientScan bs (i + 1) (out ++ [0x25])

section Scans

variable {bs out : Bytes} {i : Nat} {b : UInt8}

/-! ## Pieces from an offset on -/

theorem drop_of_getElem? (h : bs[i]? = some b) : bs.drop i = b :: bs.drop (i + 1) := by
  obtain ⟨hLength, rfl⟩ := List.getElem?_eq_some_iff.mp h
  exact List.drop_eq_getElem_cons hLength

theorem digits_of_escapeAt? (h : escapeAt? bs i = some b) :
    ∃ first second high low, bs[i + 1]? = some first ∧ bs[i + 2]? = some second ∧
      hexValue? first = some high ∧ hexValue? second = some low ∧ b = high * 16 + low := by
  simp only [escapeAt?, Option.bind_eq_bind, Option.bind_eq_some_iff, Option.pure_def, Option.some.injEq] at h
  obtain ⟨first, hFirst, high, hHigh, second, hSecond, low, hLow, rfl⟩ := h
  exact ⟨first, second, high, low, hFirst, hSecond, hHigh, hLow, rfl⟩

theorem pieces_drop_plain (hByte : bs[i]? = some b) (hSign : b ≠ 0x25) :
    pieces (bs.drop i) = .plain b :: pieces (bs.drop (i + 1)) := by
  rw [drop_of_getElem? hByte, pieces_plain hSign]

theorem pieces_drop_escape (hSign : bs[i]? = some 0x25) (hEscape : escapeAt? bs i = some b) :
    pieces (bs.drop i) = .escaped b :: pieces (bs.drop (i + 3)) := by
  obtain ⟨first, second, high, low, hFirst, hSecond, hHigh, hLow, rfl⟩ := digits_of_escapeAt? hEscape
  rw [drop_of_getElem? hSign, drop_of_getElem? hFirst, drop_of_getElem? hSecond, pieces_escape hHigh hLow]

theorem pieces_drop_stray (hStray : IsStrayAt bs i) : pieces (bs.drop i) = .stray :: pieces (bs.drop (i + 1)) := by
  obtain ⟨hSign, hEscape⟩ := hStray
  rw [drop_of_getElem? hSign]
  refine pieces_stray fun first second rest hRest => ?_
  have hFirst : (bs.drop (i + 1))[0]? = some first := by rw [hRest]; rfl
  have hSecond : (bs.drop (i + 1))[1]? = some second := by rw [hRest]; rfl
  rw [List.getElem?_drop] at hFirst hSecond
  cases hHigh : hexValue? first with
  | none => exact .inl rfl
  | some high =>
    cases hLow : hexValue? second with
    | none => exact .inr rfl
    | some low => simp [escapeAt?, hFirst, hSecond, hHigh, hLow] at hEscape

theorem pieces_drop_length (bs : Bytes) : pieces (bs.drop bs.length) = [] := by
  rw [List.drop_length]
  rfl

/-! ## The strict scan -/

theorem StrictScan.le_length (h : StrictScan bs i out) : i ≤ bs.length := by
  cases h with
  | start => exact Nat.zero_le _
  | plain _ hByte _ => exact (List.getElem?_eq_some_iff.mp hByte).1
  | escape _ _ hEscape =>
    obtain ⟨_, _, _, _, -, hSecond, -⟩ := digits_of_escapeAt? hEscape
    exact (List.getElem?_eq_some_iff.mp hSecond).1

/-- What the scan has decoded are the pieces in front of the offset, and none of them is stray. -/
theorem StrictScan.pieces (h : StrictScan bs i out) :
    ∃ front : List Piece, front.mapM Piece.strictByte? = some out ∧
      Percent.pieces bs = front ++ Percent.pieces (bs.drop i) := by
  induction h with
  | start => exact ⟨[], rfl, rfl⟩
  | @plain i out b _ hByte hSign ih =>
    obtain ⟨front, hBytes, hPieces⟩ := ih
    refine ⟨front ++ [.plain b], by simp [List.mapM_append, hBytes, Piece.strictByte?], ?_⟩
    rw [hPieces, pieces_drop_plain hByte hSign, List.append_cons]
  | @escape i out b _ hSign hEscape ih =>
    obtain ⟨front, hBytes, hPieces⟩ := ih
    refine ⟨front ++ [.escaped b], by simp [List.mapM_append, hBytes, Piece.strictByte?], ?_⟩
    rw [hPieces, pieces_drop_escape hSign hEscape, List.append_cons]

/-- From wherever it is, the scan comes to the end or to a stray sign: each step takes it closer to the end. -/
theorem StrictScan.exists_end_or_stray {bs out : Bytes} {i : Nat} (h : StrictScan bs i out) :
    (∃ out, StrictScan bs bs.length out) ∨ ∃ i out, StrictScan bs i out ∧ IsStrayAt bs i := by
  cases hByte : bs[i]? with
  | none =>
    have hEnd : i = bs.length := Nat.le_antisymm h.le_length (List.getElem?_eq_none_iff.mp hByte)
    exact .inl ⟨out, hEnd ▸ h⟩
  | some b =>
    have hLength : i < bs.length := (List.getElem?_eq_some_iff.mp hByte).1
    by_cases hSign : b = 0x25
    · subst hSign
      cases hEscape : escapeAt? bs i with
      | none => exact .inr ⟨i, out, h, hByte, hEscape⟩
      | some b => exact (h.escape hByte hEscape).exists_end_or_stray
    · exact (h.plain hByte hSign).exists_end_or_stray
termination_by bs.length - i

theorem exists_end_or_stray (bs : Bytes) :
    (∃ out, StrictScan bs bs.length out) ∨ ∃ i out, StrictScan bs i out ∧ IsStrayAt bs i :=
  StrictScan.start.exists_end_or_stray

theorem StrictScan.mapM_pieces (h : StrictScan bs bs.length out) :
    (Percent.pieces bs).mapM Piece.strictByte? = some out := by
  obtain ⟨front, hBytes, hPieces⟩ := h.pieces
  rw [hPieces, pieces_drop_length, List.append_nil, hBytes]

theorem StrictScan.mapM_pieces_of_stray (h : StrictScan bs i out) (hStray : IsStrayAt bs i) :
    (Percent.pieces bs).mapM Piece.strictByte? = none := by
  obtain ⟨front, hBytes, hPieces⟩ := h.pieces
  rw [hPieces, pieces_drop_stray hStray, List.mapM_append, hBytes]
  simp [Piece.strictByte?]

/-! ## The lenient scan -/

theorem LenientScan.pieces (h : LenientScan bs i out) :
    ∃ front : List Piece, front.map Piece.formByte = out ∧
      Percent.pieces bs = front ++ Percent.pieces (bs.drop i) := by
  induction h with
  | start => exact ⟨[], rfl, rfl⟩
  | @plain i out b _ hByte hSign hPlus ih =>
    obtain ⟨front, rfl, hPieces⟩ := ih
    refine ⟨front ++ [.plain b], by simp [Piece.formByte, hPlus], ?_⟩
    rw [hPieces, pieces_drop_plain hByte hSign, List.append_cons]
  | plus _ hPlus ih =>
    obtain ⟨front, rfl, hPieces⟩ := ih
    refine ⟨front ++ [.plain 0x2B], by simp [Piece.formByte], ?_⟩
    rw [hPieces, pieces_drop_plain hPlus (by decide), List.append_cons]
  | @escape i out b _ hSign hEscape ih =>
    obtain ⟨front, rfl, hPieces⟩ := ih
    refine ⟨front ++ [.escaped b], by simp [Piece.formByte], ?_⟩
    rw [hPieces, pieces_drop_escape hSign hEscape, List.append_cons]
  | stray _ hStray ih =>
    obtain ⟨front, rfl, hPieces⟩ := ih
    refine ⟨front ++ [.stray], by simp [Piece.formByte], ?_⟩
    rw [hPieces, pieces_drop_stray hStray, List.append_cons]

theorem LenientScan.le_length (h : LenientScan bs i out) : i ≤ bs.length := by
  cases h with
  | start => exact Nat.zero_le _
  | plain _ hByte _ _ => exact (List.getElem?_eq_some_iff.mp hByte).1
  | plus _ hPlus => exact (List.getElem?_eq_some_iff.mp hPlus).1
  | escape _ _ hEscape =>
    obtain ⟨_, _, _, _, -, hSecond, -⟩ := digits_of_escapeAt? hEscape
    exact (List.getElem?_eq_some_iff.mp hSecond).1
  | stray _ hStray => exact (List.getElem?_eq_some_iff.mp hStray.1).1

/-- From wherever it is, the scan comes to the end: nothing stops it. -/
theorem LenientScan.exists_end {bs out : Bytes} {i : Nat} (h : LenientScan bs i out) :
    ∃ out, LenientScan bs bs.length out := by
  cases hByte : bs[i]? with
  | none =>
    have hEnd : i = bs.length := Nat.le_antisymm h.le_length (List.getElem?_eq_none_iff.mp hByte)
    exact ⟨out, hEnd ▸ h⟩
  | some b =>
    have hLength : i < bs.length := (List.getElem?_eq_some_iff.mp hByte).1
    by_cases hSign : b = 0x25
    · subst hSign
      cases hEscape : escapeAt? bs i with
      | none => exact (h.stray ⟨hByte, hEscape⟩).exists_end
      | some b => exact (h.escape hByte hEscape).exists_end
    · by_cases hPlus : b = 0x2B
      · exact (h.plus (hPlus ▸ hByte)).exists_end
      · exact (h.plain hByte hSign hPlus).exists_end
termination_by bs.length - i

theorem LenientScan.map_pieces (h : LenientScan bs bs.length out) :
    (Percent.pieces bs).map Piece.formByte = out := by
  obtain ⟨front, hBytes, hPieces⟩ := h.pieces
  rw [hPieces, pieces_drop_length, List.append_nil, hBytes]

/-- Where no plus sign stands, the lenient reader comes wherever the strict one does, with the same bytes. -/
theorem StrictScan.lenient (h : StrictScan bs i out) (hPlus : 0x2B ∉ bs) : LenientScan bs i out := by
  induction h with
  | start => exact .start
  | plain _ hByte hSign ih => exact ih.plain hByte hSign fun hb => hPlus (hb ▸ List.mem_of_getElem? hByte)
  | escape _ hSign hEscape ih => exact ih.escape hSign hEscape

end Scans

/-! ## The readers -/

section Readers

variable {s text : String} {out : Bytes} {i : Nat}

theorem decode?_of_end (h : StrictScan (Utf8.ofText s) (Utf8.ofText s).length out) :
    decode? s = Utf8.toText? out := by
  rw [decode?, h.mapM_pieces]
  rfl

theorem decode?_of_stray (h : StrictScan (Utf8.ofText s) i out) (hStray : IsStrayAt (Utf8.ofText s) i) :
    decode? s = none := by
  rw [decode?, h.mapM_pieces_of_stray hStray]
  rfl

theorem decodeForm_of_end (h : LenientScan (Utf8.ofText s) (Utf8.ofText s).length out) :
    decodeForm s = Utf8.toTextLossy out := by
  rw [decodeForm, h.map_pieces]

/-- A text is read leniently as the one that the bytes stand for which the scan has decoded at the end. -/
theorem decodeForm_eq_iff :
    decodeForm s = text ↔
      ∃ out, LenientScan (Utf8.ofText s) (Utf8.ofText s).length out ∧ Utf8.toTextLossy out = text := by
  constructor
  · rintro rfl
    obtain ⟨out, hEnd⟩ := LenientScan.exists_end (LenientScan.start : LenientScan (Utf8.ofText s) 0 [])
    exact ⟨out, hEnd, (decodeForm_of_end hEnd).symm⟩
  · rintro ⟨out, hEnd, rfl⟩
    exact decodeForm_of_end hEnd

/-- A text is read strictly as the one whose bytes the scan has decoded at the end. -/
theorem decode?_eq_some_iff :
    decode? s = some text ↔ StrictScan (Utf8.ofText s) (Utf8.ofText s).length (Utf8.ofText text) := by
  constructor
  · intro h
    rcases exists_end_or_stray (Utf8.ofText s) with ⟨out, hEnd⟩ | ⟨i, out, hScan, hStray⟩
    · rw [decode?_of_end hEnd] at h
      rwa [Utf8.ofText_of_toText? h]
    · simp [decode?_of_stray hScan hStray] at h
  · intro h
    rw [decode?_of_end h, Utf8.toText?_ofText]

/-- A text is refused for a stray sign that the scan comes to, or for bytes that are not UTF-8. -/
theorem decode?_eq_none_iff :
    decode? s = none ↔
      (∃ i out, StrictScan (Utf8.ofText s) i out ∧ IsStrayAt (Utf8.ofText s) i) ∨
        ∃ out, StrictScan (Utf8.ofText s) (Utf8.ofText s).length out ∧ ∀ text, Utf8.ofText text ≠ out := by
  constructor
  · intro h
    rcases exists_end_or_stray (Utf8.ofText s) with ⟨out, hEnd⟩ | hStray
    · refine .inr ⟨out, hEnd, ?_⟩
      rintro text rfl
      simp [decode?_eq_some_iff.mpr hEnd] at h
    · exact .inl hStray
  · rintro (⟨i, out, hScan, hStray⟩ | ⟨out, hEnd, hText⟩)
    · exact decode?_of_stray hScan hStray
    · rw [decode?_of_end hEnd, Option.eq_none_iff_forall_ne_some]
      exact fun text h => hText text (Utf8.ofText_of_toText? h)

theorem decodeForm_of_decode? (hPlus : '+' ∉ s.toList) (h : decode? s = some text) : decodeForm s = text := by
  have hByte : (0x2B : UInt8) ∉ Utf8.ofText s := fun hMem => hPlus (Utf8.mem_of_mem_encode (by decide) hMem)
  have hScan := (decode?_eq_some_iff.mp h).lenient hByte
  rw [decodeForm_of_end hScan, Utf8.toTextLossy_ofText]

end Readers

/-- The strict reader gives the text whose bytes its scan has decoded at the end, and where no plus sign stands the
lenient reader gives it too.  The strict reader gives nothing exactly when its scan comes to a sign that two digits do
not follow, or to the end with bytes that are not UTF-8. -/
theorem readers_agree (s : String) :
    (∀ text, decode? s = some text ↔ StrictScan (Utf8.ofText s) (Utf8.ofText s).length (Utf8.ofText text)) ∧
      ('+' ∉ s.toList → ∀ text, decode? s = some text → decodeForm s = text) ∧
      (decode? s = none ↔
        (∃ i out, StrictScan (Utf8.ofText s) i out ∧ IsStrayAt (Utf8.ofText s) i) ∨
          ∃ out, StrictScan (Utf8.ofText s) (Utf8.ofText s).length out ∧ ∀ text, Utf8.ofText text ≠ out) :=
  ⟨fun _ => decode?_eq_some_iff, fun hPlus _ h => decodeForm_of_decode? hPlus h, decode?_eq_none_iff⟩

/-- Escaped signs and plus signs are not looked at again; a sign with one digit behind it at the end is stray. -/
theorem readers_agree_escapedSigns :
    '+' ∉ "%2541%2b%E2%9c%93".toList ∧ decode? "%2541%2b%E2%9c%93" = some "%41+\u2713" ∧
      decodeForm "%2541%2b%E2%9c%93" = "%41+\u2713" ∧ decode? "%2541%4" = none := by
  have hPlus : '+' ∉ "%2541%2b%E2%9c%93".toList := by decide
  have hStrict : decode? "%2541%2b%E2%9c%93" = some "%41+\u2713" := by decide
  obtain ⟨-, hAgree, -⟩ := readers_agree "%2541%2b%E2%9c%93"
  obtain ⟨-, -, hNone⟩ := readers_agree "%2541%4"
  have hScan : StrictScan (Utf8.ofText "%2541%4") 5 [0x25, 0x34, 0x31] :=
    ((StrictScan.start.escape (by decide) (by decide)).plain (by decide) (by decide)).plain (by decide) (by decide)
  have hStray : IsStrayAt (Utf8.ofText "%2541%4") 5 := ⟨by decide, by decide⟩
  exact ⟨hPlus, hStrict, hAgree hPlus _ hStrict, hNone.mpr (.inl ⟨5, _, hScan, hStray⟩)⟩

end Percent
end HttpServer
