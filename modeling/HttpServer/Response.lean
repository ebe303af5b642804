import HttpServer.Error
import HttpServer.Headers

/-!
# Responses

A response is an optional status, header fields, and a body.  A body in memory has a length; a stream has
one only if it was declared, and a response whose body has none can be ended only by closing the
connection.  `Response.prepare` adds the fields that describe the body.
-/

namespace HttpServer

/-- What follows the head of a response. -/
inductive Body where
  /-- Nothing at all. -/
  | none
  /-- A body in memory. -/
  | full (content : Bytes)
  /-- A body that is read while it is written: what the reader yields until it ends, and the length that
  was declared for it. -/
  | stream (content : Bytes) (size : Option Nat)
  deriving DecidableEq, Repr

namespace Body

/-- Whether there is no body at all; an empty body is one. -/
def isNone : Body → Bool
  | .none => true
  | _ => false

/-- The length of the body, if it is known before it is written. -/
def size? : Body → Option Nat
  | .none => Option.none
  | .full content => some content.length
  | .stream _ size => size

/-- The body in memory. -/
def inMemory? : Body → Option Bytes
  | .full content => some content
  | _ => Option.none

/-- The media type of a body for which none was given. -/
def defaultType? : Body → Option String
  | .none => Option.none
  | .full _ => some "text/plain; charset=utf-8"
  | .stream _ _ => some "application/octet-stream"

/-- The shape of the body: its kind, and its length as far as it is known. -/
def describe : Body → String
  | .none => "None"
  | .full content => "Full(" ++ String.ofList (decimal content.length) ++ ")"
  | .stream _ (some n) => "Stream \x7b size: Some(" ++ String.ofList (decimal n) ++ ") \x7d"
  | .stream _ Option.none => "Stream \x7b size: None \x7d"

end Body

/-- An answer to a request. -/
structure Response where
  /-- Chosen when the response is written if it is absent. -/
  status : Option Status := none
  headers : Headers := {}
  body : Body := .none
  deriving DecidableEq, Repr

namespace Response

/-- A response without a body. -/
def ofStatus (status : Status) : Response :=
  { status := some status }

/-- A response without a status and without a body. -/
def empty : Response := {}

/-- Add a header field; one that would be refused is left out. -/
def withHeader (r : Response) (name value : String) : Response :=
  { r with headers := r.headers.setOrDrop name value }

/-- Add a cookie; one that would be refused is left out. -/
def withCookie (r : Response) (c : Cookie) : Response :=
  { r with headers := r.headers.setCookieOrDrop c }

/-- Put a body in memory behind the head. -/
def withBody (r : Response) (content : Bytes) : Response :=
  { r with body := .full content }

/-- A response with a body in memory. -/
def ofBody (status : Status) (type : String) (content : Bytes) : Response :=
  ((ofStatus status).withHeader "Content-Type" type).withBody content

/-- A plain text. -/
def text (content : Bytes) : Response :=
  ofBody .ok "text/plain; charset=utf-8" content

/-- A page. -/
def html (content : Bytes) : Response :=
  ofBody .ok "text/html; charset=utf-8" content

/-- A JSON value. -/
def json (content : Bytes) : Response :=
  ofBody .ok "application/json" content

/-- A streamed body. -/
def stream (content : Bytes) (size : Option Nat) : Response :=
  { status := some .ok, body := .stream content size }

/-- A pointer to another place. -/
def redirect (location : String) (permanent : Bool) : Response :=
  (ofStatus (if permanent then .permanentRedirect else .temporaryRedirect)).withHeader "Location" location

/-- The head behind which another protocol is spoken. -/
def switchingProtocols (protocol : String) : Response :=
  ((ofStatus .switchingProtocols).withHeader "Upgrade" protocol).withHeader "Connection" "Upgrade"

/-- An error with a text that names it. -/
def error (status : Status) (message : String) : Response :=
  ofBody status "text/plain; charset=utf-8" (Utf8.ofText message)

/-- The answer when there is nothing at the target. -/
def notFound : Response :=
  error .notFound "Not Found"

/-- The answer that reports a failure. -/
def ofError (e : Error) : Response :=
  error e.statusOrFailure e.responseText

/-- Whether the end of the body can be told only by the end of the connection. -/
def isUnframed (r : Response) : Bool :=
  match r.body with
  | .stream _ none => true
  | _ => false

/-- Describe the body in the head: its length, which replaces one that was set, and a media type if there
is none. -/
def prepare (r : Response) : Response :=
  match r.body.defaultType? with
  | none => r
  | some type =>
    let headers := match r.body.size? with
      | some n => r.headers.insert "Content-Length" (String.ofList (decimal n))
      | none => r.headers
    { r with headers := if headers.has "Content-Type" then headers else headers.insert "Content-Type" type }

end Response
end HttpServer
