import HttpServer.Date
import HttpServer.Reply
import HttpServer.Response.Head
import HttpServer.Server.Config

/-!
# Deliveries — a reply as it goes on the wire

Between the reply of a handler and the bytes on the wire stand a few decisions: the fields that every
response has, a status where none was chosen, whether a body is written, and what happens behind it.  They are
made here, all at once and without writing anything.

The connection goes on only if the peer can tell where the response ends.  It cannot if the body has no
length, or if the status promises a body and there is none.
-/

namespace HttpServer

/-- What comes behind a response. -/
inductive Follow where
  | nextRequest
  | close
  | takeOver
  deriving DecidableEq, Repr

/-- A response that is ready to be written. -/
structure Delivery where
  version : Version
  status : Status
  headers : Headers
  /-- The bytes behind the head. -/
  body : Bytes
  /-- Whether the body is as long as was declared. -/
  isComplete : Bool
  follow : Follow
  deriving DecidableEq, Repr

/-- The bytes that are written of a body, and whether they are all that was declared. -/
def Body.wire : Body → Bytes × Bool
  | .none => ([], true)
  | .full content => (content, true)
  | .stream content (some size) => (content.take size, size ≤ content.length)
  | .stream content .none => (content, true)

/-- The status of a response, chosen by whether there is something to write if the handler chose none. -/
def Response.chosenStatus (method : Method) (r : Response) : Status :=
  r.status.getD (if !method.canHaveResponseBody || r.body.isNone then .noContent else .ok)

/-- The fields that every response has. -/
def Headers.withDefaults (serverName : Option String) (date : String) (h : Headers) : Headers :=
  let h := match serverName with
    | some name => if h.has "Server" then h else h.insert "Server" name
    | none => h
  h.insert "Date" date

/-- What comes behind a response: the peer has to be able to tell where it ends. -/
def followOf (r : Request) (reply : Reply) (status : Status) : Follow :=
  if reply.isHijack then .takeOver
  else if reply.response.isUnframed || r.asksToClose then .close
  else if r.method != .head && reply.response.body.isNone && status.hasBody then .close
  else .nextRequest

/-- How the reply to a request is written. -/
def Delivery.of (config : ServerConfig) (date : String) (r : Request) (reply : Reply) : Delivery :=
  let response := reply.response
  let status := response.chosenStatus r.method
  let prepared := ({ response with headers := response.headers.withDefaults config.serverName date }).prepare
  let saysClose := !reply.isHijack && (response.isUnframed || r.asksToClose)
  let (body, isComplete) :=
    if r.method.canHaveResponseBody then response.body.wire else ([], true)
  { version := if r.version.atLeast .http11 then .http11 else .http10
    status
    headers := if saysClose then prepared.headers.insert "Connection" "close" else prepared.headers
    body
    isComplete
    follow := followOf r reply status }

end HttpServer
