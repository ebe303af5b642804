import HttpServer.Proofs.Utf8

/-!
# What the pieces of a byte string stand for

Each piece that `Utf8.pieces` finds stands for some of the bytes: a scalar for its encoding, and a malformed run for
one byte at least.  These bytes, put together, are the byte string (`Utf8.covers_pieces`).

So bytes that are read strictly are the encoding of what was read (`Utf8.encode_of_decode?`); and a lossy reading, which
puts three bytes in the place of each malformed run, is at most three times as long as the bytes
(`Utf8.length_encode_decodeLossy_le`).
-/

namespace HttpServer
namespace Utf8

/-! ## Scalars of each length -/

section Scalars

variable {x y z w : Nat}

private theorem toNat_val_ofNat {v : Nat} (h : v < 0xD800 ∨ 0xDFFF < v ∧ v < 0x110000) :
    (Char.ofNat v).val.toNat = v := by
  have hValid : v.isValidChar := h
  rw [Char.ofNat, dif_pos hValid]
  rfl

theorem encodeChar_single (hx : x < 0x80) : String.utf8EncodeChar (Char.ofNat x) = [UInt8.ofNat x] := by
  have hValue := toNat_val_ofNat (v := x) (by omega)
  unfold String.utf8EncodeChar
  simp only [hValue]
  rw [if_pos (by omega)]

theorem encodeChar_double (hLow : 2 ≤ x) (hx : x < 32) (hy : y < 64) :
    String.utf8EncodeChar (Char.ofNat (x * 64 + y)) = [UInt8.ofNat (x + 0xC0), UInt8.ofNat (y + 0x80)] := by
  have hValue := toNat_val_ofNat (v := x * 64 + y) (by omega)
  unfold String.utf8EncodeChar
  simp only [hValue]
  rw [if_neg (by omega), if_pos (by omega), show (x * 64 + y) / 64 % 32 = x by omega,
    show (x * 64 + y) % 64 = y by omega]

theorem encodeChar_triple (hLow : 0x800 ≤ (x * 64 + y) * 64 + z) (hx : x < 16) (hy : y < 64) (hz : z < 64)
    (hScalar : x = 13 → y < 32) :
    String.utf8EncodeChar (Char.ofNat ((x * 64 + y) * 64 + z)) =
      [UInt8.ofNat (x + 0xE0), UInt8.ofNat (y + 0x80), UInt8.ofNat (z + 0x80)] := by
  have hValue := toNat_val_ofNat (v := (x * 64 + y) * 64 + z) (by omega)
  unfold String.utf8EncodeChar
  simp only [hValue]
  rw [if_neg (by omega), if_neg (by omega), if_pos (by omega), show ((x * 64 + y) * 64 + z) / 4096 % 16 = x by omega,
    show ((x * 64 + y) * 64 + z) / 64 % 64 = y by omega, show ((x * 64 + y) * 64 + z) % 64 = z by omega]

theorem encodeChar_quadruple (hLow : 0x10000 ≤ ((x * 64 + y) * 64 + z) * 64 + w)
    (hHigh : ((x * 64 + y) * 64 + z) * 64 + w < 0x110000) (hy : y < 64) (hz : z < 64) (hw : w < 64) :
    String.utf8EncodeChar (Char.ofNat (((x * 64 + y) * 64 + z) * 64 + w)) =
      [UInt8.ofNat (x + 0xF0), UInt8.ofNat (y + 0x80), UInt8.ofNat (z + 0x80), UInt8.ofNat (w + 0x80)] := by
  have hValue := toNat_val_ofNat (v := ((x * 64 + y) * 64 + z) * 64 + w) (by omega)
  unfold String.utf8EncodeChar
  simp only [hValue]
  rw [if_neg (by omega), if_neg (by omega), if_neg (by omega),
    show (((x * 64 + y) * 64 + z) * 64 + w) / 262144 % 8 = x by omega,
    show (((x * 64 + y) * 64 + z) * 64 + w) / 4096 % 64 = y by omega,
    show (((x * 64 + y) * 64 + z) * 64 + w) / 64 % 64 = z by omega,
    show (((x * 64 + y) * 64 + z) * 64 + w) % 64 = w by omega]

end Scalars

/-! ## Unfinished scalars -/

theorem start_malformed {done : List (Option Char)} {b : UInt8}
    (h : 0x80 ≤ b.toNat ∧ b.toNat < 0xC2 ∨ 0xF5 ≤ b.toNat) : Scan.start done b = ⟨none :: done, none⟩ := by
  simp only [Scan.start, UInt8.lt_iff_toNat_lt, UInt8.reduceToNat]
  rcases h with ⟨hLow, hHigh⟩ | hHigh
  · rw [if_neg (by omega), if_pos hHigh]
  · rw [if_neg (by omega), if_neg (by omega), if_neg (by omega), if_neg (by omega), if_neg (by omega)]

/-- Bytes that are the beginning of a scalar: with `missing + 1` bytes more, of which the next lies between `low` and
`high`, they are its encoding. -/
def Begins : Nat → UInt8 → UInt8 → Nat → Bytes → Prop
  | 0, low, high, value, bs => ∀ b, low ≤ b → b ≤ high →
    String.utf8EncodeChar (Char.ofNat (value * 64 + (b.toNat - 0x80))) = bs ++ [b]
  | missing + 1, low, high, value, bs => ∀ b, low ≤ b → b ≤ high →
    Begins missing 0x80 0xBF (value * 64 + (b.toNat - 0x80)) (bs ++ [b])

private theorem ofNat_sub_add {b : UInt8} {k : Nat} (h : k ≤ b.toNat) : UInt8.ofNat (b.toNat - k + k) = b := by
  rw [Nat.sub_add_cancel h, UInt8.ofNat_toNat]

theorem begins_double {a : UInt8} (hLow : 0xC2 ≤ a.toNat) (hHigh : a.toNat < 0xE0) :
    Begins 0 0x80 0xBF (a.toNat - 0xC0) [a] := by
  intro b hb hb'
  simp only [UInt8.le_iff_toNat_le, UInt8.reduceToNat] at hb hb'
  rw [encodeChar_double (by omega) (by omega) (by omega), ofNat_sub_add (by omega), ofNat_sub_add hb]
  rfl

theorem begins_triple {a : UInt8} (hLow : 0xE0 ≤ a.toNat) (hHigh : a.toNat < 0xF0) :
    Begins 1 (if a.toNat = 0xE0 then 0xA0 else 0x80) (if a.toNat = 0xED then 0x9F else 0xBF) (a.toNat - 0xE0) [a] := by
  intro b hb hb' c hc hc'
  -- The bounds on the second byte keep overlong forms and surrogates out.
  have hSecond : 0x80 ≤ b.toNat ∧ b.toNat ≤ 0xBF ∧ (a.toNat = 0xE0 → 0xA0 ≤ b.toNat) ∧
      (a.toNat = 0xED → b.toNat ≤ 0x9F) := by
    split_ifs at hb hb' <;> simp only [UInt8.le_iff_toNat_le, UInt8.reduceToNat] at hb hb' <;> omega
  simp only [UInt8.le_iff_toNat_le, UInt8.reduceToNat] at hc hc'
  rw [encodeChar_triple (by omega) (by omega) (by omega) (by omega) (by omega), ofNat_sub_add hLow,
    ofNat_sub_add hSecond.1, ofNat_sub_add hc]
  rfl

theorem begins_quadruple {a : UInt8} (hLow : 0xF0 ≤ a.toNat) (hHigh : a.toNat < 0xF5) :
    Begins 2 (if a.toNat = 0xF0 then 0x90 else 0x80) (if a.toNat = 0xF4 then 0x8F else 0xBF) (a.toNat - 0xF0) [a] := by
  intro b hb hb' c hc hc' d hd hd'
  have hSecond : 0x80 ≤ b.toNat ∧ b.toNat ≤ 0xBF ∧ (a.toNat = 0xF0 → 0x90 ≤ b.toNat) ∧
      (a.toNat = 0xF4 → b.toNat ≤ 0x8F) := by
    split_ifs at hb hb' <;> simp only [UInt8.le_iff_toNat_le, UInt8.reduceToNat] at hb hb' <;> omega
  simp only [UInt8.le_iff_toNat_le, UInt8.reduceToNat] at hc hc' hd hd'
  rw [encodeChar_quadruple (by omega) (by omega) (by omega) (by omega) (by omega), ofNat_sub_add hLow,
    ofNat_sub_add hSecond.1, ofNat_sub_add hc, ofNat_sub_add hd]
  rfl

/-! ## The scan -/

/-- The bytes that a piece stands for. -/
def Stands (bs : Bytes) : Option Char → Prop
  | some c => bs = String.utf8EncodeChar c
  | none => bs ≠ []

/-- Bytes that are put together from those that each piece stands for, the latest piece first. -/
inductive Covers : Bytes → List (Option Char) → Prop
  | nil : Covers [] []
  | concat {bs part : Bytes} {piece : Option Char} {done : List (Option Char)} (front : Covers bs done)
      (last : Stands part piece) : Covers (bs ++ part) (piece :: done)

/-- Where a scan stands that has read these bytes. -/
def Scan.HasRead (s : Scan) (bs : Bytes) : Prop :=
  match s.pending with
  | none => Covers bs s.done
  | some p => ∃ front part, bs = front ++ part ∧ part ≠ [] ∧ Covers front s.done ∧
    Begins p.missing p.low p.high p.value part

section Reading

variable {s : Scan} {bs : Bytes} {done : List (Option Char)}

theorem hasRead_start (h : Covers bs done) (b : UInt8) : (Scan.start done b).HasRead (bs ++ [b]) := by
  have hMalformed : Covers (bs ++ [b]) (none :: done) := h.concat (List.cons_ne_nil _ _)
  by_cases h₁ : b.toNat < 0x80
  · have hStands : Stands [b] (some (Char.ofNat b.toNat)) := by
      rw [Stands, encodeChar_single h₁, UInt8.ofNat_toNat]
    rw [start_single h₁]
    exact h.concat hStands
  by_cases h₂ : b.toNat < 0xC2
  · rw [start_malformed (.inl ⟨by omega, h₂⟩)]
    exact hMalformed
  by_cases h₃ : b.toNat < 0xE0
  · rw [start_double (by omega) h₃]
    exact ⟨bs, [b], rfl, List.cons_ne_nil _ _, h, begins_double (by omega) h₃⟩
  by_cases h₄ : b.toNat < 0xF0
  · rw [start_triple (by omega) h₄]
    exact ⟨bs, [b], rfl, List.cons_ne_nil _ _, h, begins_triple (by omega) h₄⟩
  by_cases h₅ : b.toNat < 0xF5
  · rw [start_quadruple (by omega) h₅]
    exact ⟨bs, [b], rfl, List.cons_ne_nil _ _, h, begins_quadruple (by omega) h₅⟩
  · rw [start_malformed (.inr (by omega))]
    exact hMalformed

theorem hasRead_push (h : s.HasRead bs) (b : UInt8) : (s.push b).HasRead (bs ++ [b]) := by
  obtain ⟨done, pending⟩ := s
  cases pending with
  | none => exact hasRead_start h b
  | some p =>
    obtain ⟨missing, low, high, value⟩ := p
    obtain ⟨front, part, rfl, hPart, hFront, hBegins⟩ := h
    simp only at hFront hBegins
    by_cases hRange : low ≤ b ∧ b ≤ high
    · have hNext : (front ++ part) ++ [b] = front ++ (part ++ [b]) := List.append_assoc _ _ _
      rw [hNext]
      cases missing with
      | zero =>
        have hStands : Stands (part ++ [b]) (some (Char.ofNat (value * 64 + (b.toNat - 0x80)))) :=
          (hBegins b hRange.1 hRange.2).symm
        simp only [Scan.push, if_pos hRange]
        exact hFront.concat hStands
      | succ missing =>
        simp only [Scan.push, if_pos hRange]
        exact ⟨front, part ++ [b], rfl, by simp, hFront, hBegins b hRange.1 hRange.2⟩
    · have hMalformed : Stands part none := hPart
      simp only [Scan.push, if_neg hRange]
      exact hasRead_start (hFront.concat hMalformed) b

theorem hasRead_foldl (h : s.HasRead bs) (more : Bytes) : (more.foldl Scan.push s).HasRead (bs ++ more) := by
  induction more generalizing s bs with
  | nil => simpa using h
  | cons b more ih =>
    have hRest := ih (hasRead_push h b)
    rwa [List.append_assoc] at hRest

/-- The pieces of a byte string stand for its bytes. -/
theorem covers_pieces (bs : Bytes) : Covers bs (pieces bs).reverse := by
  have hStart : ({} : Scan).HasRead [] := Covers.nil
  have hScan : (bs.foldl Scan.push {}).HasRead bs := hasRead_foldl hStart bs
  unfold pieces Scan.finish
  cases hPending : (bs.foldl Scan.push {}).pending with
  | none =>
    simp only [Scan.HasRead, hPending] at hScan
    simpa using hScan
  | some p =>
    simp only [Scan.HasRead, hPending] at hScan
    obtain ⟨front, part, hBytes, hPart, hFront, -⟩ := hScan
    have hMalformed : Stands part none := hPart
    have hCovers := hFront.concat hMalformed
    rw [← hBytes] at hCovers
    simpa using hCovers

end Reading

/-! ## Strict and lossy -/

section Texts

variable {bs : Bytes} {cs : List Char} {done : List (Option Char)}

theorem encode_of_covers (h : Covers bs done) (hWhole : done.all Option.isSome) :
    encode (done.reverse.filterMap id) = bs := by
  induction h with
  | nil => rfl
  | @concat bs part piece done _ hLast ih =>
    cases piece with
    | none => simp at hWhole
    | some c =>
      rw [List.reverse_cons, List.filterMap_append, encode_append, ih (by simpa using hWhole), hLast]
      simp [encode]

theorem length_encode_of_covers (h : Covers bs done) :
    (encode (done.reverse.map (·.getD replacement))).length ≤ 3 * bs.length := by
  induction h with
  | nil => simp [encode]
  | @concat bs part piece done _ hLast ih =>
    have hPiece : (String.utf8EncodeChar (piece.getD replacement)).length ≤ 3 * part.length := by
      cases piece with
      | none =>
        have hThree : (String.utf8EncodeChar replacement).length = 3 := by decide
        have := List.length_pos_iff.mpr hLast
        simp only [Option.getD_none, hThree]
        omega
      | some c =>
        rw [Option.getD_some, ← hLast]
        omega
    rw [List.reverse_cons, List.map_append, encode_append, List.length_append, List.length_append]
    simp only [encode, List.map_cons, List.map_nil, List.flatMap_cons, List.flatMap_nil, List.append_nil] at ih ⊢
    omega

/-- Bytes that are read strictly are the encoding of what was read. -/
theorem encode_of_decode? (h : decode? bs = some cs) : encode cs = bs := by
  unfold decode? at h
  split at h
  · rename_i hWhole
    cases h
    have hCovers := encode_of_covers (covers_pieces bs) (by simpa using hWhole)
    rwa [List.reverse_reverse] at hCovers
  · contradiction

theorem ofText_of_toText? {content : String} (h : toText? bs = some content) : ofText content = bs := by
  obtain ⟨cs, hDecode, rfl⟩ := Option.map_eq_some_iff.mp h
  rw [ofText, String.toList_ofList, encode_of_decode? hDecode]

/-- A lossy reading of bytes that can be read strictly is a strict one. -/
theorem decodeLossy_of_decode? (h : decode? bs = some cs) : decodeLossy bs = cs := by
  have hPieces := pieces_encode cs
  rw [encode_of_decode? h] at hPieces
  simp [decodeLossy, hPieces, Function.comp_def]

theorem toTextLossy_ofText (s : String) : toTextLossy (ofText s) = s := by
  rw [toTextLossy, ofText, decodeLossy_of_decode? (decode?_encode s.toList), String.ofList_toList]

theorem length_encode_decodeLossy_le (bs : Bytes) : (encode (decodeLossy bs)).length ≤ 3 * bs.length := by
  have hCovers := length_encode_of_covers (covers_pieces bs)
  rwa [List.reverse_reverse] at hCovers

@[simp]
theorem ofText_toTextLossy (bs : Bytes) : ofText (toTextLossy bs) = encode (decodeLossy bs) := by
  rw [ofText, toTextLossy, String.toList_ofList]

/-- A lossy reading of bytes that are UTF-8 has the same bytes. -/
theorem encode_decodeLossy_of_toText? {content : String} (h : toText? bs = some content) :
    encode (decodeLossy bs) = bs := by
  obtain ⟨cs, hDecode, -⟩ := Option.map_eq_some_iff.mp h
  rw [decodeLossy_of_decode? hDecode, encode_of_decode? hDecode]

end Texts

end Utf8
end HttpServer
