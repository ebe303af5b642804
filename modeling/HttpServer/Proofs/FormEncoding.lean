import HttpServer.Proofs.Lines
import HttpServer.Proofs.PathEscapes
import HttpServer.Query
import Mathlib.Data.List.Induction

/-!
# Forms as they are written

A form is written byte by byte: letters, digits and four marks stand for themselves, a space may become a plus sign,
and every byte may become an escape with digits in either letter case (`Percent.Spells`).  A pair is a key, an equals
sign and a value; pairs stand between ampersands, of which there may be more than needed (`Query.FormText`).

However a form is written, it is read as its pairs, in order and each as often as it is there
(`Query.parsePairs_of_formText`): no spelling of a byte holds a separator, and what follows a spelling has no say in how
it is read.  So the keys of the query are those of the pairs, and each has its values in their order
(`Query.parse_of_formText`).
-/

namespace HttpServer
namespace Percent

/-! ## One byte -/

/-- Bytes that a form may hold as they are: letters, digits and `-._~`. -/
def isUnreserved (b : UInt8) : Bool :=
  let c := Char.ofNat b.toNat
  b < 0x80 && (c.isAlphanum || "-._~".toList.contains c)

/-- The character is the digit of `n`, in either letter case. -/
def IsHexDigit (n : Nat) (c : Char) : Prop :=
  c = Nat.digitChar n ∨ c = hexDigit n

/-- How a byte may be written in a key or a value. -/
inductive Spells : UInt8 → List Char → Prop
  | plain {b : UInt8} (h : isUnreserved b = true) : Spells b [Char.ofNat b.toNat]
  | plus : Spells 0x20 ['+']
  | escape {b : UInt8} {high low : Char} (hHigh : IsHexDigit (b.toNat / 16) high)
      (hLow : IsHexDigit (b.toNat % 16) low) : Spells b ['%', high, low]

theorem encodeChar_of_isHexDigit {n : Nat} {c : Char} (hn : n < 16) (h : IsHexDigit n c) :
    String.utf8EncodeChar c = [UInt8.ofNat c.toNat] := by
  rcases h with rfl | rfl
  · revert n
    decide
  · exact encodeChar_hexDigit n hn

theorem hexValue?_of_isHexDigit {n : Nat} {c : Char} (hn : n < 16) (h : IsHexDigit n c) :
    hexValue? (UInt8.ofNat c.toNat) = some (UInt8.ofNat n) := by
  rcases h with rfl | rfl
  · revert n
    decide
  · exact hexValue?_hexDigit n hn

theorem isAlphanum_of_isHexDigit {n : Nat} {c : Char} (hn : n < 16) (h : IsHexDigit n c) : c.isAlphanum = true := by
  rcases h with rfl | rfl <;> revert n <;> decide

/-- However a byte is written, it is read as one piece that stands for it, whatever follows. -/
theorem Spells.pieces {b : UInt8} {cs : List Char} (h : Spells b cs) (rest : Bytes) :
    ∃ piece : Piece, piece.formByte = b ∧
      Percent.pieces (Utf8.encode cs ++ rest) = piece :: Percent.pieces rest := by
  cases h with
  | plain hPlain =>
    have hLow : b.toNat < 0x80 := by
      simp only [isUnreserved, Bool.and_eq_true, decide_eq_true_eq] at hPlain
      exact UInt8.lt_iff_toNat_lt.mp hPlain.1
    have hMarks : isUnreserved 0x25 = false ∧ isUnreserved 0x2B = false := by decide
    have hSign : b ≠ 0x25 := by
      rintro rfl
      simp [hMarks.1] at hPlain
    have hPlus : b ≠ 0x2B := by
      rintro rfl
      simp [hMarks.2] at hPlain
    have hBytes : Utf8.encode [Char.ofNat b.toNat] = [b] := by simp [Utf8.encode, Utf8.encodeChar_single hLow]
    exact ⟨.plain b, by simp [Piece.formByte, hPlus], by rw [hBytes, List.singleton_append, pieces_plain hSign]⟩
  | plus =>
    have hBytes : Utf8.encode ['+'] = [0x2B] := by decide
    exact ⟨.plain 0x2B, rfl, by rw [hBytes, List.singleton_append, pieces_plain (by decide)]⟩
  | escape hHigh hLow =>
    obtain ⟨hHighBound, hLowBound⟩ := halves_lt b
    exact ⟨.escaped b, rfl, pieces_encode_escape (encodeChar_of_isHexDigit hHighBound hHigh)
      (encodeChar_of_isHexDigit hLowBound hLow) (hexValue?_of_isHexDigit hHighBound hHigh)
      (hexValue?_of_isHexDigit hLowBound hLow) rest⟩

/-- Characters that a spelling may hold. -/
def isSpellingChar (c : Char) : Bool :=
  c.isAlphanum || "-._~+%".toList.contains c

theorem Spells.isSpellingChar_of_mem {b : UInt8} {cs : List Char} (h : Spells b cs) {c : Char} (hMem : c ∈ cs) :
    isSpellingChar c = true := by
  cases h with
  | plain hPlain =>
    obtain rfl := List.mem_singleton.mp hMem
    simp only [isUnreserved, Bool.and_eq_true, Bool.or_eq_true] at hPlain
    rcases hPlain.2 with hAlphanum | hMark
    · simp [isSpellingChar, hAlphanum]
    · have hMarks : "-._~".toList.all isSpellingChar = true := by decide
      exact List.all_eq_true.mp hMarks _ (List.contains_iff_mem.mp hMark)
  | plus =>
    obtain rfl := List.mem_singleton.mp hMem
    decide
  | @escape _ high low hHigh hLow =>
    obtain ⟨hHighBound, hLowBound⟩ := halves_lt b
    simp only [List.mem_cons, List.not_mem_nil, or_false] at hMem
    rcases hMem with rfl | rfl | rfl
    · decide
    · simp [isSpellingChar, isAlphanum_of_isHexDigit hHighBound hHigh]
    · simp [isSpellingChar, isAlphanum_of_isHexDigit hLowBound hLow]

/-! ## A key or a value -/

/-- How the bytes of a key or a value may be written. -/
inductive Component : Bytes → List Char → Prop
  | nil : Component [] []
  | cons {b : UInt8} {bs : Bytes} {front cs : List Char} (hByte : Spells b front) (hRest : Component bs cs) :
      Component (b :: bs) (front ++ cs)

theorem Component.isSpellingChar_of_mem {bs : Bytes} {cs : List Char} (h : Component bs cs) {c : Char}
    (hMem : c ∈ cs) : isSpellingChar c = true := by
  induction h with
  | nil => contradiction
  | cons hByte _ ih =>
    rcases List.mem_append.mp hMem with hFront | hRest
    · exact hByte.isSpellingChar_of_mem hFront
    · exact ih hRest

/-- The induction is on the bytes; each is one more piece. -/
theorem Component.map_pieces {bs : Bytes} {cs : List Char} (h : Component bs cs) :
    (pieces (Utf8.encode cs)).map Piece.formByte = bs := by
  induction h with
  | nil => rfl
  | @cons b bs front cs hByte _ ih =>
    obtain ⟨piece, hPiece, hPieces⟩ := hByte.pieces (Utf8.encode cs)
    rw [Utf8.encode_append, hPieces, List.map_cons, hPiece, ih]

/-- A text is read back however its bytes are written. -/
theorem Component.decodeForm {text : String} {cs : List Char} (h : Component (Utf8.ofText text) cs) :
    Percent.decodeForm (String.ofList cs) = text := by
  rw [Percent.decodeForm, Utf8.ofText, String.toList_ofList, h.map_pieces, Utf8.toTextLossy_ofText]

end Percent

namespace Query

/-! ## Pairs -/

/-- How a pair may be written. -/
inductive PairText (key value : String) : List Char → Prop
  | mk {front back : List Char} (hKey : Percent.Component (Utf8.ofText key) front)
      (hValue : Percent.Component (Utf8.ofText value) back) : PairText key value (front ++ '=' :: back)

/-- How pairs may be written: with an ampersand between them, and more of them anywhere. -/
inductive FormText : List (String × String) → List Char → Prop
  | nothing : FormText [] []
  | ampersand {pairs : List (String × String)} {cs : List Char} (h : FormText pairs cs) : FormText pairs ('&' :: cs)
  | last {key value : String} {part : List Char} (hPair : PairText key value part) : FormText [(key, value)] part
  | pair {key value : String} {pairs : List (String × String)} {part cs : List Char}
      (hPair : PairText key value part) (hRest : FormText pairs cs) :
      FormText ((key, value) :: pairs) (part ++ '&' :: cs)

variable {key value : String} {part cs : List Char} {pairs : List (String × String)}

theorem PairText.ampersand_not_mem (h : PairText key value part) : '&' ∉ part := by
  have hChar : Percent.isSpellingChar '&' = false := by decide
  cases h with
  | mk hKey hValue =>
    intro hMem
    rcases List.mem_append.mp hMem with hFront | hBack
    · exact absurd (hKey.isSpellingChar_of_mem hFront) (by simp [hChar])
    · rcases List.mem_cons.mp hBack with hEquals | hRest
      · exact absurd hEquals (by decide)
      · exact absurd (hValue.isSpellingChar_of_mem hRest) (by simp [hChar])

theorem PairText.isEmpty_eq_false (h : PairText key value part) : part.isEmpty = false := by
  cases h
  simp

/-- The first equals sign is the one behind the key. -/
theorem PairText.parsePair (h : PairText key value part) : Query.parsePair part = (key, value) := by
  cases h with
  | @mk front back hKey hValue =>
    have hEquals : '=' ∉ front := fun hMem => absurd (hKey.isSpellingChar_of_mem hMem) (by decide)
    have hCut : cutFirst '=' (front ++ '=' :: back) = some (front, back) := cutFirst_eq_some_iff.mpr ⟨rfl, hEquals⟩
    simp only [Query.parsePair, hCut, Option.getD_some, hKey.decodeForm, hValue.decodeForm]

/-- A form is read as its pairs; the empty parts between ampersands count for nothing. -/
theorem FormText.map_parsePair (h : FormText pairs cs) :
    ((splitOn '&' cs).filter (!·.isEmpty)).map Query.parsePair = pairs := by
  induction h with
  | nothing => rfl
  | @ampersand pairs cs _ ih =>
    have hCut : cutFirst '&' ('&' :: cs) = some ([], cs) := cutFirst_eq_some_iff.mpr ⟨rfl, by simp⟩
    rw [splitOn_of_cutFirst hCut, List.filter_cons_of_neg (by simp), ih]
  | last hPair =>
    rw [splitOn_of_not_mem hPair.ampersand_not_mem, List.filter_cons_of_pos (by simp [hPair.isEmpty_eq_false])]
    simp [hPair.parsePair]
  | @pair key value pairs part cs hPair _ ih =>
    have hCut : cutFirst '&' (part ++ '&' :: cs) = some (part, cs) :=
      cutFirst_eq_some_iff.mpr ⟨rfl, hPair.ampersand_not_mem⟩
    rw [splitOn_of_cutFirst hCut, List.filter_cons_of_pos (by simp [hPair.isEmpty_eq_false]), List.map_cons, ih,
      hPair.parsePair]

theorem parsePairs_of_formText {raw : String} (h : FormText pairs raw.toList) : parsePairs raw = pairs :=
  h.map_parsePair

/-! ## Keys and their values -/

/-- Add pairs one after the other. -/
def addAll (q : Query) (pairs : List (String × String)) : Query :=
  pairs.foldl (fun q (key, value) => q.add key value) q

theorem addAll_concat (q : Query) (pairs : List (String × String)) (pair : String × String) :
    q.addAll (pairs ++ [pair]) = (q.addAll pairs).add pair.1 pair.2 := by
  simp [addAll]

/-- The keys of added pairs, each at its first place. -/
theorem map_fst_addAll (pairs : List (String × String)) :
    (({} : Query).addAll pairs).entries.map (·.1) = (pairs.map (·.1)).eraseDups := by
  induction pairs using List.reverseRecOn with
  | nil => rfl
  | append_singleton pairs pair ih =>
    rw [addAll_concat, add, map_fst_alter, ih, List.map_append, List.map_singleton, List.eraseDups_append]
    generalize pairs.map (·.1) = keys
    by_cases hOld : pair.1 ∈ keys
    · simp [List.removeAll, hOld]
    · simp [List.removeAll, hOld, List.eraseDups_cons]

/-- The values of a key are those of its pairs. -/
theorem getAll_addAll (pairs : List (String × String)) (key : String) :
    (({} : Query).addAll pairs).getAll key = (pairs.filter (·.1 == key)).map (·.2) := by
  induction pairs using List.reverseRecOn with
  | nil => rfl
  | append_singleton pairs pair ih =>
    rw [addAll_concat, getAll_add, ih, List.filter_append, List.map_append]
    by_cases hKey : pair.1 = key <;> simp [hKey]

/-- A form that was written in any way is read as the query of its pairs: its keys are theirs, each at its first place,
and a key has the values of its pairs in their order. -/
theorem parse_of_formText {raw : String} (h : FormText pairs raw.toList) :
    (parse raw).entries.map (·.1) = (pairs.map (·.1)).eraseDups ∧
      (∀ key, (parse raw).has key = true ↔ key ∈ pairs.map (·.1)) ∧
      ∀ key, (parse raw).getAll key = (pairs.filter (·.1 == key)).map (·.2) := by
  have hQuery : parse raw = ({} : Query).addAll pairs := by
    rw [parse, parsePairs_of_formText h]
    rfl
  have hKeys := map_fst_addAll pairs
  rw [hQuery]
  refine ⟨hKeys, fun key => ?_, getAll_addAll pairs⟩
  rw [has_iff_mem, hKeys, List.mem_eraseDups]

/-- Pairs with separators in their texts, a key that comes twice, and a pair of empty texts. -/
def separators : List (String × String) :=
  [("a b", "1&2="), ("", ""), ("a b", "+\u00e9")]

theorem parse_of_formText_separators :
    FormText separators "&a+b=1%262%3d&&=&a%20b=%2B%c3%A9&".toList ∧
      (parse "&a+b=1%262%3d&&=&a%20b=%2B%c3%A9&").entries.map (·.1) = ["a b", ""] ∧
      (parse "&a+b=1%262%3d&&=&a%20b=%2B%c3%A9&").getAll "a b" = ["1&2=", "+\u00e9"] := by
  have hTexts : Utf8.ofText "a b" = [0x61, 0x20, 0x62] ∧ Utf8.ofText "1&2=" = [0x31, 0x26, 0x32, 0x3D] ∧
      Utf8.ofText "+\u00e9" = [0x2B, 0xC3, 0xA9] ∧ Utf8.ofText "" = [] := by decide
  obtain ⟨hKey, hFirst, hSecond, hEmpty⟩ := hTexts
  have hPlus : PairText "a b" "1&2=" "a+b=1%262%3d".toList := by
    refine @PairText.mk _ _ ['a', '+', 'b'] ['1', '%', '2', '6', '2', '%', '3', 'd'] ?_ ?_
    · rw [hKey]
      exact .cons (.plain rfl) (.cons .plus (.cons (.plain rfl) .nil))
    · rw [hFirst]
      exact .cons (.plain rfl) (.cons (.escape (.inl rfl) (.inl rfl)) (.cons (.plain rfl)
        (.cons (.escape (.inl rfl) (.inl rfl)) .nil)))
  have hEscape : PairText "a b" "+\u00e9" "a%20b=%2B%c3%A9".toList := by
    refine @PairText.mk _ _ ['a', '%', '2', '0', 'b'] ['%', '2', 'B', '%', 'c', '3', '%', 'A', '9'] ?_ ?_
    · rw [hKey]
      exact .cons (.plain rfl) (.cons (.escape (.inl rfl) (.inl rfl)) (.cons (.plain rfl) .nil))
    · rw [hSecond]
      exact .cons (.escape (.inl rfl) (.inr rfl)) (.cons (.escape (.inl rfl) (.inl rfl))
        (.cons (.escape (.inr rfl) (.inl rfl)) .nil))
  have hNothing : PairText "" "" "=".toList := by
    refine @PairText.mk _ _ [] [] ?_ ?_ <;> rw [hEmpty] <;> exact .nil
  have hForm : FormText separators "&a+b=1%262%3d&&=&a%20b=%2B%c3%A9&".toList :=
    .ampersand (.pair hPlus (.ampersand (.pair hNothing (.pair hEscape .nothing))))
  obtain ⟨hKeys, -, hValues⟩ := parse_of_formText hForm
  exact ⟨hForm, hKeys, hValues "a b"⟩

end Query
end HttpServer
