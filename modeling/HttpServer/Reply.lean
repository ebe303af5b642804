import HttpServer.Connection.Upgraded
import HttpServer.Request
import HttpServer.Response

/-!
# Replies — what a handler answers

A handler answers a request with a response, or with a response behind which it takes the connection over,
or it fails.
-/

namespace HttpServer

/-- What is done with a connection that was taken over: the stream as it is left, and the failure that ended
the work if there was one. -/
abbrev Hijacker := Upgraded → Upgraded × Option TransportError

/-- The answer to a request. -/
inductive Reply where
  | respond (r : Response)
  | hijack (r : Response) (hijacker : Hijacker)

namespace Reply

/-- The response whose head is written. -/
def response : Reply → Response
  | .respond r => r
  | .hijack r _ => r

/-- Whether the connection is taken over. -/
def isHijack : Reply → Bool
  | .respond _ => false
  | .hijack _ _ => true

/-- The reply that reports a failure. -/
def ofError (e : Error) : Reply :=
  .respond (Response.ofError e)

end Reply

/-- An application: it answers each request, or fails with a message. -/
abbrev Handler := Request → Except String Reply

end HttpServer
