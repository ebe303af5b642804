import HttpServer.Text.Utf8
import Mathlib.Tactic.SplitIfs

/-!
# Texts survive their encoding

`Utf8.pieces` reads a byte at a time with at most one unfinished scalar in hand.  Fed with the bytes of a scalar
it is left with that scalar and nothing in hand (`foldl_push_encodeChar`), so an encoded text is read back as it
was written (`decode?_encode`).
-/

namespace HttpServer
namespace Utf8

/-! ## One byte -/

section Steps

variable {done : List (Option Char)} {b : UInt8}

theorem start_single (h : b.toNat < 0x80) :
    Scan.start done b = ⟨some (Char.ofNat b.toNat) :: done, none⟩ := by
  simp only [Scan.start, UInt8.lt_iff_toNat_lt, UInt8.reduceToNat]
  rw [if_pos h]

theorem start_double (hLow : 0xC2 ≤ b.toNat) (hHigh : b.toNat < 0xE0) :
    Scan.start done b = ⟨done, some ⟨0, 0x80, 0xBF, b.toNat - 0xC0⟩⟩ := by
  simp only [Scan.start, UInt8.lt_iff_toNat_lt, UInt8.reduceToNat]
  rw [if_neg (by omega), if_neg (by omega), if_pos hHigh]

theorem start_triple (hLow : 0xE0 ≤ b.toNat) (hHigh : b.toNat < 0xF0) :
    Scan.start done b =
      ⟨done, some ⟨1, if b.toNat = 0xE0 then 0xA0 else 0x80, if b.toNat = 0xED then 0x9F else 0xBF,
        b.toNat - 0xE0⟩⟩ := by
  simp only [Scan.start, UInt8.lt_iff_toNat_lt, ← UInt8.toNat_inj, UInt8.reduceToNat]
  rw [if_neg (by omega), if_neg (by omega), if_neg (by omega), if_pos hHigh]

theorem start_quadruple (hLow : 0xF0 ≤ b.toNat) (hHigh : b.toNat < 0xF5) :
    Scan.start done b =
      ⟨done, some ⟨2, if b.toNat = 0xF0 then 0x90 else 0x80, if b.toNat = 0xF4 then 0x8F else 0xBF,
        b.toNat - 0xF0⟩⟩ := by
  simp only [Scan.start, UInt8.lt_iff_toNat_lt, ← UInt8.toNat_inj, UInt8.reduceToNat]
  rw [if_neg (by omega), if_neg (by omega), if_neg (by omega), if_neg (by omega), if_pos hHigh]

variable {low high : UInt8} {value : Nat}

theorem push_last (hLow : low.toNat ≤ b.toNat) (hHigh : b.toNat ≤ high.toNat) :
    Scan.push ⟨done, some ⟨0, low, high, value⟩⟩ b =
      ⟨some (Char.ofNat (value * 64 + (b.toNat - 0x80))) :: done, none⟩ := by
  simp only [Scan.push, UInt8.le_iff_toNat_le]
  rw [if_pos ⟨hLow, hHigh⟩]

theorem push_inner {missing : Nat} (hLow : low.toNat ≤ b.toNat) (hHigh : b.toNat ≤ high.toNat) :
    Scan.push ⟨done, some ⟨missing + 1, low, high, value⟩⟩ b =
      ⟨done, some ⟨missing, 0x80, 0xBF, value * 64 + (b.toNat - 0x80)⟩⟩ := by
  simp only [Scan.push, UInt8.le_iff_toNat_le]
  rw [if_pos ⟨hLow, hHigh⟩]

end Steps

/-! ## One scalar -/

private theorem toNat_ofNat_of_lt {n : Nat} (h : n < 256) : (UInt8.ofNat n).toNat = n := by
  rw [UInt8.toNat_ofNat']
  omega

/-- A byte behind the first one of a scalar carries six bits. -/
private theorem toNat_continuation (n : Nat) : (UInt8.ofNat (n % 64 + 128)).toNat = n % 64 + 128 :=
  toNat_ofNat_of_lt (by omega)

/-- The bytes of a scalar leave the scan with that scalar and nothing in hand.  The four cases are the four
lengths; the bounds on the second byte are where overlong forms and surrogates would show. -/
theorem foldl_push_encodeChar (done : List (Option Char)) (c : Char) :
    (String.utf8EncodeChar c).foldl Scan.push ⟨done, none⟩ = ⟨some c :: done, none⟩ := by
  have hValid : c.val.toNat < 0xD800 ∨ 0xDFFF < c.val.toNat ∧ c.val.toNat < 0x110000 := c.valid
  have hChar : Char.ofNat c.val.toNat = c := Char.ofNat_toNat c
  unfold String.utf8EncodeChar
  dsimp only
  generalize c.val.toNat = v at hValid hChar ⊢
  subst hChar
  -- One, two, three and four bytes.
  split_ifs with h₁ h₂ h₃
  · have hFirst : (UInt8.ofNat v).toNat = v := toNat_ofNat_of_lt (by omega)
    change Scan.start done (UInt8.ofNat v) = _
    rw [start_single (by omega), hFirst]
  · have hFirst : (UInt8.ofNat (v / 64 % 32 + 192)).toNat = v / 64 % 32 + 192 := toNat_ofNat_of_lt (by omega)
    have hLast := toNat_continuation v
    have hValue : (v / 64 % 32 + 192 - 192) * 64 + (v % 64 + 128 - 128) = v := by omega
    change Scan.push (Scan.start done _) _ = _
    rw [start_double (by omega) (by omega)]
    rw [push_last (by simp only [UInt8.reduceToNat]; omega) (by simp only [UInt8.reduceToNat]; omega)]
    rw [hFirst, hLast, hValue]
  · have hFirst : (UInt8.ofNat (v / 4096 % 16 + 224)).toNat = v / 4096 % 16 + 224 := toNat_ofNat_of_lt (by omega)
    have hSecond := toNat_continuation (v / 64)
    have hLast := toNat_continuation v
    have hValue : ((v / 4096 % 16 + 224 - 224) * 64 + (v / 64 % 64 + 128 - 128)) * 64 + (v % 64 + 128 - 128) = v := by
      omega
    change Scan.push (Scan.push (Scan.start done _) _) _ = _
    rw [start_triple (by omega) (by omega)]
    rw [push_inner]
    rw [push_last (by simp only [UInt8.reduceToNat]; omega) (by simp only [UInt8.reduceToNat]; omega)]
    rw [hFirst, hSecond, hLast, hValue]
    -- The second byte keeps its bounds, because the scalar is no surrogate and has no shorter form.
    · rw [hFirst, hSecond]
      split_ifs <;> (simp only [UInt8.reduceToNat]; omega)
    · rw [hFirst, hSecond]
      split_ifs <;> (simp only [UInt8.reduceToNat]; omega)
  · have hFirst : (UInt8.ofNat (v / 262144 % 8 + 240)).toNat = v / 262144 % 8 + 240 := toNat_ofNat_of_lt (by omega)
    have hSecond := toNat_continuation (v / 4096)
    have hThird := toNat_continuation (v / 64)
    have hLast := toNat_continuation v
    have hValue : (((v / 262144 % 8 + 240 - 240) * 64 + (v / 4096 % 64 + 128 - 128)) * 64 +
        (v / 64 % 64 + 128 - 128)) * 64 + (v % 64 + 128 - 128) = v := by omega
    change Scan.push (Scan.push (Scan.push (Scan.start done _) _) _) _ = _
    rw [start_quadruple (by omega) (by omega)]
    rw [push_inner]
    rw [push_inner (by simp only [UInt8.reduceToNat]; omega) (by simp only [UInt8.reduceToNat]; omega)]
    rw [push_last (by simp only [UInt8.reduceToNat]; omega) (by simp only [UInt8.reduceToNat]; omega)]
    rw [hFirst, hSecond, hThird, hLast, hValue]
    · rw [hFirst, hSecond]
      split_ifs <;> (simp only [UInt8.reduceToNat]; omega)
    · rw [hFirst, hSecond]
      split_ifs <;> (simp only [UInt8.reduceToNat]; omega)

/-! ## Whole texts -/

theorem foldl_push_encode (done : List (Option Char)) (cs : List Char) :
    (encode cs).foldl Scan.push ⟨done, none⟩ = ⟨(cs.map some).reverse ++ done, none⟩ := by
  induction cs generalizing done with
  | nil => rfl
  | cons c cs ih =>
    rw [encode, List.flatMap_cons, List.foldl_append, foldl_push_encodeChar]
    rw [← encode, ih]
    simp

/-- An encoded text has exactly its own scalars as pieces. -/
theorem pieces_encode (cs : List Char) : pieces (encode cs) = cs.map some := by
  unfold pieces
  rw [foldl_push_encode]
  simp [Scan.finish]

@[simp]
theorem decode?_encode (cs : List Char) : decode? (encode cs) = some cs := by
  simp [decode?, pieces_encode]

/-- A byte below 0x80 is a scalar of its own, and no part of the encoding of another. -/
theorem mem_of_mem_encode {b : UInt8} {cs : List Char} (hb : b.toNat < 0x80) (h : b ∈ encode cs) :
    Char.ofNat b.toNat ∈ cs := by
  simp only [encode, List.mem_flatMap] at h
  obtain ⟨c, hc, hMem⟩ := h
  have hSingle : c.val.toNat = b.toNat := by
    have hFirst : ∀ n k : Nat, 128 ≤ k → k + n < 256 → (UInt8.ofNat (n + k)).toNat = n + k :=
      fun n k _ _ => toNat_ofNat_of_lt (by omega)
    unfold String.utf8EncodeChar at hMem
    dsimp only at hMem
    generalize c.val.toNat = v at hMem ⊢
    -- In the longer forms the first byte is 0xC0 or more, and every other is 0x80 or more.
    split_ifs at hMem with h₁ h₂ h₃
    · simp only [List.mem_singleton] at hMem
      rw [hMem, toNat_ofNat_of_lt (by omega)]
    · simp only [List.mem_cons, List.not_mem_nil, or_false] at hMem
      rcases hMem with rfl | rfl
      · rw [hFirst _ _ (by omega) (by omega)] at hb
        omega
      · rw [toNat_continuation] at hb
        omega
    · simp only [List.mem_cons, List.not_mem_nil, or_false] at hMem
      rcases hMem with rfl | rfl | rfl
      · rw [hFirst _ _ (by omega) (by omega)] at hb
        omega
      all_goals
        rw [toNat_continuation] at hb
        omega
    · simp only [List.mem_cons, List.not_mem_nil, or_false] at hMem
      rcases hMem with rfl | rfl | rfl | rfl
      · rw [hFirst _ _ (by omega) (by omega)] at hb
        omega
      all_goals
        rw [toNat_continuation] at hb
        omega
  have hChar : Char.ofNat b.toNat = c := by
    rw [← hSingle]
    exact Char.ofNat_toNat c
  rw [hChar]
  exact hc

theorem encode_append (front back : List Char) : encode (front ++ back) = encode front ++ encode back :=
  List.flatMap_append

@[simp]
theorem ofText_append (front back : String) : ofText (front ++ back) = ofText front ++ ofText back := by
  simp [ofText, encode_append]

@[simp]
theorem toText?_ofText (s : String) : toText? (ofText s) = some s := by
  simp [toText?, ofText]

theorem ofText_injective {s t : String} (h : ofText s = ofText t) : s = t := by
  simpa using congrArg toText? h

theorem ofText_ne_nil {s : String} (h : s ≠ "") : ofText s ≠ [] := by
  intro hNil
  exact h (ofText_injective hNil)

/-- A text without line feeds has none in its bytes. -/
theorem not_mem_ofText {s : String} (h : '\n' ∉ s.toList) : (0x0A : UInt8) ∉ ofText s := by
  intro hMem
  exact h (mem_of_mem_encode (by decide) hMem)

end Utf8
end HttpServer
