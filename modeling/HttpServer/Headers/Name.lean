/-!
# Names and values of header fields

A field name is a token, and its letter case carries no meaning.  Names are kept in one canonical case, in
which the first letter and every letter behind a hyphen is a capital, so that two names are the same name
exactly when their canonical forms are equal.  Only ASCII letters have a case here.
-/

namespace HttpServer

/-- The canonical case of a name; the flag says whether the next letter is a capital. -/
def canonicalChars : Bool → List Char → List Char
  | _, [] => []
  | capital, c :: cs => (if capital then c.toUpper else c.toLower) :: canonicalChars (c == '-') cs

/-- The canonical case of a name: `content-type` becomes `Content-Type`. -/
def canonicalName (name : String) : String :=
  String.ofList (canonicalChars true name.toList)

/-- Equality of texts in which ASCII letters of either case are the same. -/
def sameIgnoringCase (a b : String) : Bool :=
  a.toList.map Char.toLower == b.toList.map Char.toLower

/-- Characters of a token. -/
def isTokenChar (c : Char) : Bool :=
  c.isAlphanum || "!#$%&'*+-.^_\x60|~".toList.contains c

/-- Whether a text is a token: not empty, and token characters only. -/
def isToken (name : String) : Bool :=
  !name.isEmpty && name.toList.all isTokenChar

/-- Characters of a field value: tab, space, visible ASCII, and everything outside ASCII. -/
def isFieldChar (c : Char) : Bool :=
  c == '\t' || (0x20 ≤ c.toNat && c.toNat ≠ 0x7F)

/-- Whether a text may stand as a field value. -/
def isFieldValue (value : String) : Bool :=
  value.toList.all isFieldChar

/-- The field that carries a cookie to the client. -/
def setCookieName : String := "Set-Cookie"

end HttpServer
