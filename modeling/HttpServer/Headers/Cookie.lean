import HttpServer.Date
import HttpServer.Headers.Error
import HttpServer.Headers.Name

/-!
# Cookies of a response

A cookie is a name, a value and attributes.  `Cookie.validate` says which cookies fit into one
`Set-Cookie` line: the name is a token, and value, domain and path are field values without a semicolon.
`Cookie.headerValue?` writes the line's value; a lifetime in seconds wins over an expiry date, and an
expiry date that has no text leaves the whole line without one.
-/

namespace HttpServer

/-- When a cookie goes along with requests that other sites caused. -/
inductive SameSite where
  | strict
  | lax
  | none
  deriving DecidableEq, Repr

/-- The attribute's value. -/
def SameSite.text : SameSite → String
  | .strict => "Strict"
  | .lax => "Lax"
  | .none => "None"

/-- A cookie that a response sets. -/
structure Cookie where
  name : String
  value : String
  domain : Option String := none
  path : Option String := none
  /-- Lifetime in seconds; zero counts as absent. -/
  maxAge : Option Nat := none
  expires : Option Instant := none
  httpOnly : Bool := false
  secure : Bool := false
  sameSite : Option SameSite := none
  deriving DecidableEq, Repr

namespace Cookie

/-- The cookie that makes a client forget `name`: it expired when time began. -/
def delete (name : String) : Cookie :=
  { name, value := "", expires := some (.ofSeconds 0) }

/-- Whether a text may be a cookie's value, domain or path. -/
def isPart (text : String) : Bool :=
  isFieldValue text && !text.toList.contains ';'

/-- Refuse a part that is there and not valid. -/
def checkPart (name : String) (part : CookiePart) (text : Option String) : Except HeaderError Unit :=
  if text.all isPart then .ok () else .error (.invalidCookiePart part name)

/-- Check that the cookie fits into one line. -/
def validate (c : Cookie) : Except HeaderError Unit := do
  if c.name.isEmpty then throw .emptyCookieName
  if !isToken c.name then throw (.invalidCookieName c.name)
  checkPart c.name .value (some c.value)
  checkPart c.name .domain c.domain
  checkPart c.name .path c.path

/-- The attribute that limits the cookie's life: the outer `none` when the date has no text. -/
def lifetime? (c : Cookie) : Option (Option String) :=
  match c.maxAge.filter (0 < ·), c.expires with
  | some age, _ => some (some ("Max-Age=" ++ String.ofList (decimal age)))
  | none, some expiry => (dateText? expiry.second).map fun date => some ("Expires=" ++ date)
  | none, none => some none

/-- The attributes in the order in which they are written. -/
def attributes? (c : Cookie) : Option (List String) := do
  let lifetime ← c.lifetime?
  return lifetime.toList ++ (c.domain.map ("Domain=" ++ ·)).toList ++ (c.path.map ("Path=" ++ ·)).toList ++
    (if c.httpOnly then ["HttpOnly"] else []) ++ (if c.secure then ["Secure"] else []) ++
    (c.sameSite.map ("SameSite=" ++ ·.text)).toList

/-- The value of the cookie's `Set-Cookie` line: the pair and its attributes, each behind a semicolon and a
space; `none` when the expiry is written and has no text. -/
def headerValue? (c : Cookie) : Option String := do
  let attributes ← c.attributes?
  return attributes.foldl (fun line text => line ++ "; " ++ text) (c.name ++ "=" ++ c.value)

end Cookie
end HttpServer
