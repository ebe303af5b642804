/-!
# Numbers as text — plain decimal numerals and hexadecimal digits

A decimal numeral on the wire is a non-empty run of ASCII digits, without a sign and without blanks.
Reading bounds the value from above, because a length or a port that does not fit its field is refused
rather than wrapped.
-/

namespace HttpServer

/-- The decimal numeral of `n`, without leading zeros. -/
def decimal (n : Nat) : List Char :=
  Nat.toDigits 10 n

/-- The value of a plain decimal numeral that is at most `max`. -/
def readDecimal? (max : Nat) (cs : List Char) : Option Nat :=
  if cs.isEmpty || !cs.all Char.isDigit then none
  else
    let n := Nat.ofDigitChars 10 cs 0
    if n ≤ max then some n else none

theorem isDigit_of_mem_decimal {n : Nat} {c : Char} (h : c ∈ decimal n) : c.isDigit = true :=
  Nat.isDigit_of_mem_toDigits (by omega) (by omega) h

theorem ofDigitChars_decimal (n : Nat) : Nat.ofDigitChars 10 (decimal n) 0 = n :=
  Nat.ofDigitChars_toDigits (by omega) (by omega)

/-- A numeral that is read back is the number it was written from. -/
theorem readDecimal?_decimal {max n : Nat} (h : n ≤ max) : readDecimal? max (decimal n) = some n := by
  have hne : decimal n ≠ [] := Nat.toDigits_ne_nil
  have hall : (decimal n).all Char.isDigit = true := List.all_eq_true.mpr fun c hc => isDigit_of_mem_decimal hc
  simp [readDecimal?, hne, hall, ofDigitChars_decimal, h]

/-- The value of a hexadecimal digit in either letter case. -/
def hexValue? (b : UInt8) : Option UInt8 :=
  if 0x30 ≤ b ∧ b ≤ 0x39 then some (b - 0x30)
  else if 0x61 ≤ b ∧ b ≤ 0x66 then some (b - 0x61 + 10)
  else if 0x41 ≤ b ∧ b ≤ 0x46 then some (b - 0x41 + 10)
  else none

/-- The upper-case hexadecimal digit of a value below sixteen. -/
def hexDigit (n : Nat) : Char :=
  (Nat.digitChar n).toUpper

end HttpServer
