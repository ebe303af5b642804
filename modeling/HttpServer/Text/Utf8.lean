/-!
# UTF-8 — texts as bytes, and bytes as texts

The wire carries bytes; handlers see texts.  Encoding is a `flatMap` over the scalars.  Decoding is one
left-to-right scan with at most one unfinished scalar in hand: a byte that cannot continue that scalar
closes it as *malformed* and is then looked at as a first byte, so every malformed run is cut at its
longest well-formed beginning.

* `Utf8.pieces` — the scalars of a byte string in order, with `none` for each malformed run;
* `Utf8.decode?` — refuses a byte string with a malformed run;
* `Utf8.decodeLossy` — writes the replacement character once per malformed run.

The two readers share `pieces`, so they agree on every byte string that `decode?` accepts.
-/

namespace HttpServer

/-- Bytes in the order in which they travel. -/
abbrev Bytes := List UInt8

namespace Utf8

/-- The bytes of a text. -/
def encode (cs : List Char) : Bytes :=
  cs.flatMap String.utf8EncodeChar

/-- A scalar whose first bytes have been read.  `missing + 1` bytes are still due; the next of them must
lie between `low` and `high`, which excludes overlong forms, surrogates and values past the last scalar. -/
structure Partial where
  missing : Nat
  low : UInt8
  high : UInt8
  value : Nat
  deriving DecidableEq, Repr

/-- State of the scan: the pieces found so far, the latest first, and the unfinished scalar if there is
one. -/
structure Scan where
  done : List (Option Char) := []
  pending : Option Partial := none
  deriving DecidableEq, Repr

/-- Read `b` as the first byte of a scalar. -/
def Scan.start (done : List (Option Char)) (b : UInt8) : Scan :=
  if b < 0x80 then ⟨some (Char.ofNat b.toNat) :: done, none⟩
  else if b < 0xC2 then ⟨none :: done, none⟩
  else if b < 0xE0 then ⟨done, some ⟨0, 0x80, 0xBF, b.toNat - 0xC0⟩⟩
  else if b < 0xF0 then
    ⟨done, some ⟨1, if b = 0xE0 then 0xA0 else 0x80, if b = 0xED then 0x9F else 0xBF, b.toNat - 0xE0⟩⟩
  else if b < 0xF5 then
    ⟨done, some ⟨2, if b = 0xF0 then 0x90 else 0x80, if b = 0xF4 then 0x8F else 0xBF, b.toNat - 0xF0⟩⟩
  else ⟨none :: done, none⟩

/-- Read one byte: it continues the unfinished scalar, or closes it as malformed and starts the next piece. -/
def Scan.push (s : Scan) (b : UInt8) : Scan :=
  match s.pending with
  | none => Scan.start s.done b
  | some p =>
    if p.low ≤ b ∧ b ≤ p.high then
      let value := p.value * 64 + (b.toNat - 0x80)
      match p.missing with
      | 0 => ⟨some (Char.ofNat value) :: s.done, none⟩
      | missing + 1 => ⟨s.done, some ⟨missing, 0x80, 0xBF, value⟩⟩
    else Scan.start (none :: s.done) b

/-- The pieces of a scan that has read its last byte; an unfinished scalar is malformed. -/
def Scan.finish (s : Scan) : List (Option Char) :=
  match s.pending with
  | none => s.done.reverse
  | some _ => (none :: s.done).reverse

/-- The scalars of a byte string in order, with `none` for each malformed run. -/
def pieces (bs : Bytes) : List (Option Char) :=
  (bs.foldl Scan.push {}).finish

/-- The text that `bs` encodes; `none` when some run of bytes is malformed. -/
def decode? (bs : Bytes) : Option (List Char) :=
  if (pieces bs).all Option.isSome then some ((pieces bs).filterMap id) else none

/-- What stands for a malformed run in a lossy reading. -/
def replacement : Char := '\uFFFD'

/-- The text of `bs`, with one replacement character for each malformed run. -/
def decodeLossy (bs : Bytes) : List Char :=
  (pieces bs).map (·.getD replacement)

/-- The bytes of a string. -/
def ofText (s : String) : Bytes :=
  encode s.toList

/-- The string that `bs` encodes, if it is well-formed. -/
def toText? (bs : Bytes) : Option String :=
  (decode? bs).map String.ofList

/-- The string of `bs`, malformed runs replaced. -/
def toTextLossy (bs : Bytes) : String :=
  String.ofList (decodeLossy bs)

end Utf8
end HttpServer
