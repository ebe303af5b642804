import HttpServer.Headers.Cookie

/-!
# Header stores

A store keeps the fields of a message in the order in which they were first set, one value for each name,
and beside them the cookies of a response.  Lookups ignore the case of ASCII letters; names are stored in
canonical case.

* `Headers.set` — the checked way in: it refuses `Set-Cookie`, names that are no tokens, and values that
  could not be written;
* `Headers.insert` — the same for a name in canonical case that is known to be good;
* `Headers.setCookie` — the checked way in for cookies, of which each name is kept once too.
-/

namespace HttpServer

/-- The fields of a message, and the cookies of a response. -/
structure Headers where
  fields : List (String × String) := []
  cookies : List Cookie := []
  deriving DecidableEq, Repr

namespace Headers

/-- The value of `name` in either letter case. -/
def get? (h : Headers) (name : String) : Option String :=
  (h.fields.find? fun (n, _) => sameIgnoringCase n name).map (·.2)

/-- Whether `name` is there in either letter case. -/
def has (h : Headers) (name : String) : Bool :=
  (h.get? name).isSome

/-- Give `name` the value `value`, in its place if it is there and behind all others if not. -/
def insertField (name value : String) : List (String × String) → List (String × String)
  | [] => [(name, value)]
  | (n, v) :: rest => if n == name then (n, value) :: rest else (n, v) :: insertField name value rest

/-- Store a field under a name in canonical case, without checks. -/
def insert (h : Headers) (name value : String) : Headers :=
  { h with fields := insertField name value h.fields }

/-- Store a field, replacing the value that the name had: whether it was taken, and the store behind the call. -/
def set (h : Headers) (name value : String) : Except HeaderError Unit × Headers :=
  let name := canonicalName name
  if name == setCookieName then (.error .cookieAsHeader, h)
  else if !isToken name then (.error (.invalidName name), h)
  else if !isFieldValue value then (.error (.invalidValue name), h)
  else (.ok (), h.insert name value)

/-- Store a field and do not ask whether it was taken. -/
def setOrDrop (h : Headers) (name value : String) : Headers :=
  (h.set name value).2

/-- A value with more text behind it, separated by a space unless it was empty. -/
def joinFolded (value extra : String) : String :=
  if value.isEmpty then extra else value ++ " " ++ extra

/-- Extend the value of a stored name by the text of a continuation line. -/
def appendFolded (h : Headers) (name extra : String) : Headers :=
  { h with fields := h.fields.map fun (n, v) => if n == name then (n, joinFolded v extra) else (n, v) }

/-- Forget `name` in either letter case. -/
def remove (h : Headers) (name : String) : Headers :=
  { h with fields := h.fields.filter fun (n, _) => !sameIgnoringCase n name }

/-- The cookie called `name`; here letter case counts. -/
def cookie? (h : Headers) (name : String) : Option Cookie :=
  h.cookies.find? (·.name == name)

/-- Whether a cookie called `name` is there. -/
def hasCookie (h : Headers) (name : String) : Bool :=
  (h.cookie? name).isSome

/-- Put a cookie in the place of the one with its name, or behind all others. -/
def insertCookie (c : Cookie) : List Cookie → List Cookie
  | [] => [c]
  | d :: rest => if d.name == c.name then c :: rest else d :: insertCookie c rest

/-- Store a cookie, replacing the one with its name: whether it was taken, and the store behind the call. -/
def setCookie (h : Headers) (c : Cookie) : Except HeaderError Unit × Headers :=
  match c.validate with
  | .error e => (.error e, h)
  | .ok () => (.ok (), { h with cookies := insertCookie c h.cookies })

/-- Store a cookie that has a name and a value and no attributes. -/
def setCookieValue (h : Headers) (name value : String) : Except HeaderError Unit × Headers :=
  h.setCookie { name, value }

/-- Store a cookie and do not ask whether it was taken. -/
def setCookieOrDrop (h : Headers) (c : Cookie) : Headers :=
  (h.setCookie c).2

/-- Forget the cookie called `name`. -/
def removeCookie (h : Headers) (name : String) : Headers :=
  { h with cookies := h.cookies.filter (·.name != name) }

/-- Number of fields; cookies do not count. -/
def size (h : Headers) : Nat :=
  h.fields.length

/-- Whether there is neither a field nor a cookie. -/
def isEmpty (h : Headers) : Bool :=
  h.fields.isEmpty && h.cookies.isEmpty

end Headers
end HttpServer
