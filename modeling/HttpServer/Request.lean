import HttpServer.Error
import HttpServer.Headers
import HttpServer.Headers.MediaType
import HttpServer.Method
import HttpServer.Query

/-!
# Requests, as a handler sees them

A request is its method, version, target and header fields, and its body if one was read.  Everything else
— the media type, the declared length, the cookies, the form — is a view: a function of these parts.
-/

namespace HttpServer

/-- Why the body of a request cannot be read as a form. -/
inductive FormError where
  | noBody
  | notUrlEncoded (essence : String)
  | multipart
  deriving DecidableEq, Repr

/-- What the error says. -/
def FormError.message : FormError → String
  | .noBody => "request has no body"
  | .notUrlEncoded essence => "content type '" ++ essence ++ "' is not a urlencoded form"
  | .multipart => "multipart forms must be decoded from the raw body"

/-- A request that has been read. -/
structure Request where
  method : Method
  version : Version := .http11
  /-- The target as it was written. -/
  target : String
  url : Url
  headers : Headers := {}
  /-- The body; only methods that carry one have it, and an empty body counts as none. -/
  body : Option Bytes := none
  /-- Address and port of the peer. -/
  remoteAddr : Option String := none
  deriving DecidableEq, Repr

/-- The media type of a form in the form encoding. -/
def urlEncodedForm : String := "application/x-www-form-urlencoded"

/-- The media type of a form in parts. -/
def multipartForm : String := "multipart/form-data"

namespace Headers

/-- The media type of the body. -/
def mediaType? (h : Headers) : Option MediaType :=
  (h.get? "Content-Type").map MediaType.parse

/-- Type and subtype of the body. -/
def essence? (h : Headers) : Option String :=
  h.mediaType?.map (·.essence)

/-- A parameter of the media type. -/
def mediaParam? (h : Headers) (name : String) : Option String :=
  h.mediaType?.bind (·.param? name)

/-- The declared length of the body; `none` when it is absent or no numeral. -/
def declaredLength? (h : Headers) : Option Nat :=
  (h.get? "Content-Length").bind contentLength?

/-- The cookies that the client sent, each name once. -/
def requestCookies (h : Headers) : List (String × String) :=
  ((h.get? "Cookie").map cookiePairs).getD []

/-- The value of a cookie that the client sent. -/
def requestCookie? (h : Headers) (name : String) : Option String :=
  h.requestCookies.lookup name

end Headers

namespace Request

/-- A request that was not read from a connection; header fields that would be refused are left out. -/
def build (method : Method) (target : String) (version : Version) (fields : List (String × String))
    (body : Option Bytes) (remoteAddr : Option String) : Except Error Request :=
  match Url.parse target with
  | .error e => .error (.url e)
  | .ok url =>
    .ok { method, version, target, url, body, remoteAddr,
          headers := fields.foldl (fun h (name, value) => h.setOrDrop name value) {} }

/-- The decoded path. -/
def path (r : Request) : String :=
  r.url.path

/-- The value of a header field, in either letter case. -/
def header? (r : Request) (name : String) : Option String :=
  r.headers.get? name

/-- The form in the body. -/
def form (r : Request) : Except FormError Query :=
  match r.body with
  | none => .error .noBody
  | some body =>
    let essence := r.headers.essence?.getD ""
    if essence == urlEncodedForm then .ok (Query.parse (Utf8.toTextLossy body))
    else if essence == multipartForm then .error .multipart
    else .error (.notUrlEncoded essence)

/-- The line that separates the parts of a multipart form. -/
def multipartBoundary? (r : Request) : Option String :=
  if r.headers.essence? == some multipartForm then
    (r.headers.mediaParam? "boundary").filter (!·.isEmpty)
  else none

/-- Whether the request opens an HTTP/2 connection. -/
def isHttp2Preface (r : Request) : Bool :=
  r.method == .pri && r.version == .http20

/-- Whether the client asks for the connection to be closed behind the response. -/
def asksToClose (r : Request) : Bool :=
  (r.header? "Connection").any (hasToken · "close")

end Request
end HttpServer
