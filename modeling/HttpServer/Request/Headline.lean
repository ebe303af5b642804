import HttpServer.Error
import HttpServer.Method
import HttpServer.Text.Split

/-!
# Request lines

A request line is a method, a target and a version.  The first space ends the method and the last space
begins the version, so a target may hold spaces.

* `splitHeadline` — the three pieces, as far as their lengths make sense;
* `parseVersion?` — `HTTP/` in either letter case, a digit, a point, a digit;
* `Headline.parse` — the meaning of all three.  Only major version 1 is spoken; `PRI` with version 2.0 is let
  through so that it can be answered.
-/

namespace HttpServer

/-- The method, target and version of a request line, not looked into yet. -/
def splitHeadline (line : Bytes) : Except ParseError (Bytes × Bytes × Bytes) :=
  match cutFirst 0x20 line with
  | none => .error .malformedHeadline
  | some (method, rest) =>
    match cutLast 0x20 rest with
    | none => .error .malformedHeadline
    | some (target, version) =>
      if method.length < 3 || target.isEmpty || version.length < 5 then .error .malformedHeadline
      else .ok (method, target, version)

/-- The value of a decimal digit. -/
def digitValue? (b : UInt8) : Option Nat :=
  if 0x30 ≤ b ∧ b ≤ 0x39 then some (b.toNat - 0x30) else none

/-- A byte with an ASCII letter in lower case. -/
def lowerByte (b : UInt8) : UInt8 :=
  if 0x41 ≤ b ∧ b ≤ 0x5A then b + 0x20 else b

/-- The version that a request line names. -/
def parseVersion? (bs : Bytes) : Option Version :=
  match bs with
  | [h, t₁, t₂, p, slash, major, point, minor] => do
    if [h, t₁, t₂, p, slash].map lowerByte == Utf8.ofText "http/" && point == 0x2E then
      return ⟨← digitValue? major, ← digitValue? minor⟩
    else none
  | _ => none

/-- A request line that has been understood. -/
structure Headline where
  method : Method
  version : Version
  target : String
  url : Url
  deriving DecidableEq, Repr

namespace Headline

/-- Refuse a version that is not spoken with this method. -/
def checkVersion (method : Method) (version : Version) (written : Bytes) : Except Error Unit :=
  if method = .pri then
    if version = .http20 then .ok () else .error (.parse (.invalidMethod Method.pri.name))
  else if version.major = 1 then .ok ()
  else if version.major = 0 then .error (.parse (.malformedVersion (Utf8.toTextLossy written)))
  else .error (.unsupported (.protocolVersion version.major version.minor))

/-- The target as a text, and its parts. -/
def parseTarget (target : Bytes) : Except Error (String × Url) :=
  match Utf8.toText? target with
  | none => .error (.parse (.misdirectedTarget (Utf8.toTextLossy target)))
  | some text =>
    match Url.parse text with
    | .ok url => .ok (text, url)
    | .error _ => .error (.parse (.misdirectedTarget text))

/-- The meaning of a request line.  Of several faults the first in the order method, version, target is
reported. -/
def parse (line : Bytes) : Except Error Headline := do
  let (methodBytes, targetBytes, versionBytes) ← (splitHeadline line).mapError Error.parse
  let some method := Method.parse? methodBytes
    | throw (.parse (.invalidMethod (Utf8.toTextLossy methodBytes)))
  let some version := parseVersion? versionBytes
    | throw (.parse (.malformedVersion (Utf8.toTextLossy versionBytes)))
  checkVersion method version versionBytes
  let (target, url) ← parseTarget targetBytes
  return { method, version, target, url }

end Headline
end HttpServer
