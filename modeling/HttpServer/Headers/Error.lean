import HttpServer.Text.Quoted

/-!
# Why a header or a cookie is refused
-/

namespace HttpServer

/-- The parts of a cookie that hold free text. -/
inductive CookiePart where
  | value
  | domain
  | path
  deriving DecidableEq, Repr

/-- What a message calls the part. -/
def CookiePart.label : CookiePart → String
  | .value => "value"
  | .domain => "domain"
  | .path => "path"

/-- Why a header or a cookie cannot be stored. -/
inductive HeaderError where
  /-- Cookies are not set as plain headers. -/
  | cookieAsHeader
  | invalidName (name : String)
  | invalidValue (name : String)
  | emptyCookieName
  | invalidCookieName (name : String)
  | invalidCookiePart (part : CookiePart) (name : String)
  /-- A refusal that an application words itself. -/
  | refused (text : String)
  deriving DecidableEq, Repr

/-- What the error says. -/
def HeaderError.message : HeaderError → String
  | .cookieAsHeader => "Set-Cookie must be set through set_cookie"
  | .invalidName name => "invalid header name: " ++ Quoted.quote name
  | .invalidValue name => "invalid value for " ++ name
  | .emptyCookieName => "cookie name cannot be empty"
  | .invalidCookieName name => "invalid cookie name: " ++ Quoted.quote name
  | .invalidCookiePart part name => "invalid cookie " ++ part.label ++ " for " ++ name
  | .refused text => text

end HttpServer
