import HttpServer.Text.Number
import HttpServer.Text.Utf8

/-!
# Percent escapes — reading and writing `%XX`

A byte string is read from left to right into pieces: plain bytes, escapes (`%` and two hexadecimal
digits, in either letter case), and stray percent signs, which two digits do not follow.  The digit after a
stray sign is read again on its own.

* `Percent.decode?` — the strict reader for paths: no stray sign, and the bytes must be UTF-8;
* `Percent.decodeForm` — the lenient reader for form components: a plus sign is a space, a stray sign
  stands for itself, malformed UTF-8 is replaced;
* `Percent.encodePath` — the writer for paths, which escapes every byte that a path may not hold as it is.
-/

namespace HttpServer.Percent

/-- What a byte string with escapes consists of. -/
inductive Piece where
  /-- A byte that stands for itself. -/
  | plain (b : UInt8)
  /-- A byte that was written as an escape. -/
  | escaped (b : UInt8)
  /-- A percent sign that no escape begins with. -/
  | stray
  deriving DecidableEq, Repr

/-- How much of an escape has been read. -/
inductive Pending where
  | nothing
  | sign
  /-- The sign and one digit, with the digit's value. -/
  | digit (b value : UInt8)
  deriving DecidableEq, Repr

/-- State of the scan: the pieces found so far, the latest first, and the unfinished escape. -/
structure Scan where
  done : List Piece := []
  pending : Pending := .nothing
  deriving DecidableEq, Repr

/-- Read `b` where no escape is open. -/
def Scan.start (done : List Piece) (b : UInt8) : Scan :=
  if b = 0x25 then ⟨done, .sign⟩ else ⟨.plain b :: done, .nothing⟩

/-- Read one byte. -/
def Scan.push (s : Scan) (b : UInt8) : Scan :=
  match s.pending, hexValue? b with
  | .nothing, _ => Scan.start s.done b
  | .sign, some high => ⟨s.done, .digit b high⟩
  | .sign, none => Scan.start (.stray :: s.done) b
  | .digit _ high, some low => ⟨.escaped (high * 16 + low) :: s.done, .nothing⟩
  | .digit d _, none => Scan.start (.plain d :: .stray :: s.done) b

/-- The pieces of a scan that has read its last byte. -/
def Scan.finish (s : Scan) : List Piece :=
  match s.pending with
  | .nothing => s.done.reverse
  | .sign => (.stray :: s.done).reverse
  | .digit d _ => (.plain d :: .stray :: s.done).reverse

/-- The pieces of a byte string in order. -/
def pieces (bs : Bytes) : List Piece :=
  (bs.foldl Scan.push {}).finish

/-- The byte that a piece stands for in a path; a stray sign stands for none. -/
def Piece.strictByte? : Piece → Option UInt8
  | .plain b | .escaped b => some b
  | .stray => none

/-- The byte that a piece stands for in a form component. -/
def Piece.formByte : Piece → UInt8
  | .plain b => if b = 0x2B then 0x20 else b
  | .escaped b => b
  | .stray => 0x25

/-- Strict decoding; `none` when a percent sign is stray or the decoded bytes are not UTF-8. -/
def decode? (s : String) : Option String := do
  let bytes ← (pieces (Utf8.ofText s)).mapM Piece.strictByte?
  Utf8.toText? bytes

/-- Lenient decoding of a key or value of a form. -/
def decodeForm (s : String) : String :=
  Utf8.toTextLossy ((pieces (Utf8.ofText s)).map Piece.formByte)

/-- The bytes that stand for themselves in a written path: letters, digits, the marks `-._~`, the
sub-delimiters, and `:`, `@`, `/`. -/
def isPathByte (b : UInt8) : Bool :=
  let c := Char.ofNat b.toNat
  b < 0x80 && (c.isAlphanum || "-._~!$&'()*+,;=:@/".toList.contains c)

/-- One byte of a path as it is written. -/
def encodePathByte (b : UInt8) : List Char :=
  if isPathByte b then [Char.ofNat b.toNat]
  else ['%', hexDigit (b.toNat / 16), hexDigit (b.toNat % 16)]

/-- A decoded path as it is written in a target. -/
def encodePath (path : String) : String :=
  String.ofList ((Utf8.ofText path).flatMap encodePathByte)

end HttpServer.Percent
