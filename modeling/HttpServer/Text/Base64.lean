import HttpServer.Text.Utf8

/-!
# Base64

Three bytes are written as four digits of six bits, and what is left at the end is padded with equal signs to
four characters.  Reading takes the padding or goes without it.
-/

namespace HttpServer.Base64

/-- The digit of a value below 64. -/
def digit (n : Nat) : Char :=
  if n < 26 then Char.ofNat ('A'.toNat + n)
  else if n < 52 then Char.ofNat ('a'.toNat + (n - 26))
  else if n < 62 then Char.ofNat ('0'.toNat + (n - 52))
  else if n = 62 then '+'
  else '/'

/-- The value of a digit. -/
def value? (c : Char) : Option Nat :=
  if 'A' ≤ c ∧ c ≤ 'Z' then some (c.toNat - 'A'.toNat)
  else if 'a' ≤ c ∧ c ≤ 'z' then some (c.toNat - 'a'.toNat + 26)
  else if '0' ≤ c ∧ c ≤ '9' then some (c.toNat - '0'.toNat + 52)
  else if c = '+' then some 62
  else if c = '/' then some 63
  else none

/-- Write bytes. -/
def encode : Bytes → List Char
  | [] => []
  | [a] => [digit (a.toNat / 4), digit (a.toNat % 4 * 16), '=', '=']
  | [a, b] =>
    [digit (a.toNat / 4), digit (a.toNat % 4 * 16 + b.toNat / 16), digit (b.toNat % 16 * 4), '=']
  | a :: b :: c :: rest =>
    digit (a.toNat / 4) :: digit (a.toNat % 4 * 16 + b.toNat / 16) ::
      digit (b.toNat % 16 * 4 + c.toNat / 64) :: digit (c.toNat % 64) :: encode rest

/-- The byte of two digits. -/
def oneByte? (a b : Char) : Option Bytes := do
  let x ← value? a
  let y ← value? b
  return [UInt8.ofNat (x * 4 + y / 16)]

/-- The bytes of three digits. -/
def twoBytes? (a b c : Char) : Option Bytes := do
  let first ← oneByte? a b
  let y ← value? b
  let z ← value? c
  return first ++ [UInt8.ofNat (y % 16 * 16 + z / 4)]

/-- The bytes of four digits. -/
def threeBytes? (a b c d : Char) : Option Bytes := do
  let front ← twoBytes? a b c
  let z ← value? c
  let w ← value? d
  return front ++ [UInt8.ofNat (z % 4 * 64 + w)]

/-- Read digits in groups of four.  The last group may be padded or cut short; bits that it leaves over are
not looked at. -/
def decode? : List Char → Option Bytes
  | [] => some []
  | [_] => none
  | [a, b] | [a, b, '=', '='] => oneByte? a b
  | [a, b, c] | [a, b, c, '='] => twoBytes? a b c
  | a :: b :: c :: d :: rest => do
    let front ← threeBytes? a b c d
    let behind ← decode? rest
    return front ++ behind

end HttpServer.Base64
