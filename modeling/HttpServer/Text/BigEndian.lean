import HttpServer.Text.Utf8

/-!
# Numbers of fixed width, the most significant byte first

`ofBigEndian_bigEndian` says that a number is read back modulo what the width can hold, and
`bigEndian_ofBigEndian` that bytes are read back as they are, so each number has one form of each width.
-/

namespace HttpServer

/-- The `width` low bytes of `n`, the most significant one first. -/
def bigEndian : Nat → Nat → Bytes
  | 0, _ => []
  | width + 1, n => bigEndian width (n / 256) ++ [UInt8.ofNat n]

/-- How many numbers have a form of this width. -/
def numbersOfWidth : Nat → Nat
  | 0 => 1
  | width + 1 => 256 * numbersOfWidth width

/-- The number that the bytes write. -/
def ofBigEndian (bs : Bytes) : Nat :=
  bs.foldl (fun n b => n * 256 + b.toNat) 0

@[simp] theorem length_bigEndian (width n : Nat) : (bigEndian width n).length = width := by
  induction width generalizing n with
  | zero => rfl
  | succ width ih => simp [bigEndian, ih]

theorem ofBigEndian_concat (bs : Bytes) (b : UInt8) :
    ofBigEndian (bs ++ [b]) = ofBigEndian bs * 256 + b.toNat := by
  simp [ofBigEndian, List.foldl_append]

theorem ofBigEndian_bigEndian (width n : Nat) :
    ofBigEndian (bigEndian width n) = n % numbersOfWidth width := by
  induction width generalizing n with
  | zero => simp [bigEndian, ofBigEndian, numbersOfWidth, Nat.mod_one]
  | succ width ih =>
    rw [bigEndian, ofBigEndian_concat, ih, numbersOfWidth, Nat.mod_mul, UInt8.toNat_ofNat']
    omega

/-- Bytes of one more width are those of the width before and a last one. -/
theorem exists_concat_of_length {width : Nat} {bs : Bytes} (h : bs.length = width + 1) :
    ∃ init b, init.length = width ∧ bs = init ++ [b] := by
  have hne : bs ≠ [] := by
    intro hnil
    simp [hnil] at h
  exact ⟨bs.dropLast, bs.getLast hne, by simp [h], (List.dropLast_concat_getLast hne).symm⟩

theorem ofBigEndian_lt {width : Nat} {bs : Bytes} (h : bs.length = width) :
    ofBigEndian bs < numbersOfWidth width := by
  induction width generalizing bs with
  | zero =>
    obtain rfl := List.eq_nil_of_length_eq_zero h
    simp [ofBigEndian, numbersOfWidth]
  | succ width ih =>
    obtain ⟨init, b, hInit, rfl⟩ := exists_concat_of_length h
    rw [ofBigEndian_concat, numbersOfWidth]
    have := ih hInit
    have := b.toNat_lt
    omega

theorem bigEndian_ofBigEndian {width : Nat} {bs : Bytes} (h : bs.length = width) :
    bigEndian width (ofBigEndian bs) = bs := by
  induction width generalizing bs with
  | zero =>
    obtain rfl := List.eq_nil_of_length_eq_zero h
    rfl
  | succ width ih =>
    obtain ⟨init, b, hInit, rfl⟩ := exists_concat_of_length h
    have hb := b.toNat_lt
    rw [ofBigEndian_concat, bigEndian,
      show (ofBigEndian init * 256 + b.toNat) / 256 = ofBigEndian init by omega, ih hInit]
    congr 2
    exact UInt8.toNat_inj.mp (by rw [UInt8.toNat_ofNat']; omega)

end HttpServer
