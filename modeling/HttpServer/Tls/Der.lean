import HttpServer.Text.BigEndian

/-!
# Values in DER

A value is a tag, a length and that many bytes.  What a server has to know of a certificate and a key is
little: the values inside a value, one after the other.
-/

namespace HttpServer.Der

/-- A value that was not looked into. -/
structure Value where
  tag : UInt8
  content : Bytes
  deriving DecidableEq, Repr

/-- A whole number. -/
def integerTag : UInt8 := 0x02

/-- A string of bits, of which the first byte says how many bits of the last one do not count. -/
def bitStringTag : UInt8 := 0x03

/-- A string of bytes. -/
def octetStringTag : UInt8 := 0x04

/-- Values in sequence. -/
def sequenceTag : UInt8 := 0x30

/-- An optional part that is told by number one. -/
def partOneTag : UInt8 := 0xA1

/-- The length of a value and what is behind the length. -/
def length? (bs : Bytes) : Option (Nat × Bytes) :=
  match bs with
  | [] => none
  | n :: rest =>
    if n < 0x80 then some (n.toNat, rest)
    else
      let width := n.toNat - 0x80
      if width = 0 ∨ 4 < width ∨ rest.length < width then none
      else some (ofBigEndian (rest.take width), rest.drop width)

/-- The first value, and what is behind it. -/
def value? (bs : Bytes) : Option (Value × Bytes) :=
  match bs with
  | [] => none
  | tag :: rest => do
    let (n, rest) ← length? rest
    if rest.length < n then none else some (⟨tag, rest.take n⟩, rest.drop n)

/-- At most `most` values one after the other. -/
def values? : Nat → Bytes → Option (List Value)
  | 0, bs => if bs.isEmpty then some [] else none
  | most + 1, bs =>
    if bs.isEmpty then some []
    else do
      let (v, rest) ← value? bs
      let vs ← values? most rest
      return v :: vs

/-- The values inside a sequence that is all there is. -/
def sequence? (bs : Bytes) : Option (List Value) := do
  let (v, rest) ← value? bs
  if v.tag = sequenceTag ∧ rest.isEmpty then values? v.content.length v.content else none

end HttpServer.Der
