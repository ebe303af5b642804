import HttpServer.Text.Split

/-!
# Host values — what a `Host` field may say

A host is a registered name, an IPv4 address or a bracketed IPv6 address, and a port may follow it behind
a colon.  The check is syntactic: it names the characters each of them may hold.
-/

namespace HttpServer.Host

/-- Characters of a registered name: letters, digits, `-._~`, the sub-delimiters and the percent sign. -/
def isNameChar (c : Char) : Bool :=
  c.isAlphanum || "-._~!$&'()*+,;=%".toList.contains c

/-- Characters of a bracketed address. -/
def isAddressChar (c : Char) : Bool :=
  c.isDigit || ('a' ≤ c && c ≤ 'f') || ('A' ≤ c && c ≤ 'F') || c == ':' || c == '.'

/-- At most five digits; a colon with nothing behind it is allowed. -/
def isPort (cs : List Char) : Bool :=
  cs.length ≤ 5 && cs.all Char.isDigit

/-- What may follow a bracketed address. -/
def isPortSuffix : List Char → Bool
  | [] => true
  | ':' :: port => isPort port
  | _ => false

/-- A non-empty run of characters of one class. -/
def isRun (allowed : Char → Bool) (cs : List Char) : Bool :=
  !cs.isEmpty && cs.all allowed

/-- Whether a `Host` value names a host, on the characters of the value. -/
def isValidChars : List Char → Bool
  | '[' :: rest =>
    match cutFirst ']' rest with
    | some (address, after) => isRun isAddressChar address && isPortSuffix after
    | none => false
  | cs =>
    match cutLast ':' cs with
    | some (name, port) => isRun isNameChar name && isPort port
    | none => isRun isNameChar cs

/-- Whether a `Host` value names a host. -/
def isValid (value : String) : Bool :=
  isValidChars value.toList

end HttpServer.Host
