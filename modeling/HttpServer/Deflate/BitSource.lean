import HttpServer.Text.Utf8

/-!
# Bits of a compressed message

The bits of a byte come out with the least significant one first, and a number is written the same way.
Blocks that are not compressed begin at the next whole byte.
-/

namespace HttpServer.Deflate

/-- Why decoding ended. -/
inductive Stop where
  /-- The last block is over. -/
  | finished
  /-- The input is used up. -/
  | exhausted
  | corrupt
  /-- There is more output than was asked for. -/
  | overflow
  deriving DecidableEq, Repr

/-- The bits that are left of the current byte, and the bytes behind it. -/
structure BitSource where
  pending : List Bool := []
  bytes : Bytes
  deriving DecidableEq, Repr

namespace BitSource

/-- How many bits are left. -/
def size (s : BitSource) : Nat :=
  s.pending.length + 8 * s.bytes.length

/-- The next bit. -/
def next (s : BitSource) : Except Stop (Bool × BitSource) :=
  match s.pending, s.bytes with
  | bit :: pending, bytes => .ok (bit, { pending, bytes })
  | [], b :: bytes =>
    .ok (b.toNat.testBit 0, { pending := (List.range' 1 7).map b.toNat.testBit, bytes })
  | [], [] => .error .exhausted

/-- A number of `width` bits. -/
def number : Nat → BitSource → Except Stop (Nat × BitSource)
  | 0, s => .ok (0, s)
  | width + 1, s => do
    let (bit, s) ← s.next
    let (n, s) ← s.number width
    return (2 * n + bit.toNat, s)

/-- Skip what is left of the current byte. -/
def align (s : BitSource) : BitSource :=
  { s with pending := [] }

end BitSource
end HttpServer.Deflate
