import HttpServer.Transport.Error
import HttpServer.WebSocket.Frame.Decode

/-!
# Messages on a WebSocket, and what can go wrong with them

The end of a connection carries a code and a reason, or nothing.  A failure that the peer is to blame for
has a code too (`WebSocketError.closeCode?`); the connection is closed with it.
-/

namespace HttpServer

/-- Why a connection ends. -/
structure CloseReason where
  code : UInt16
  text : String
  deriving DecidableEq, Repr

namespace CloseReason

/-- Everything is done. -/
def normal : CloseReason := ⟨1000, "Normal closure"⟩

/-- One side is leaving. -/
def goingAway : CloseReason := ⟨1001, "Going away"⟩

/-- The peer broke the rules. -/
def protocolError : CloseReason := ⟨1002, "Protocol error"⟩

/-- Read the payload of a close frame; one that is too short for a code says nothing. -/
def parse? (payload : Bytes) : Option CloseReason :=
  match payload with
  | a :: b :: reason => some ⟨UInt16.ofNat (ofBigEndian [a, b]), Utf8.toTextLossy reason⟩
  | _ => none

end CloseReason

/-- The close frame that gives a reason, or none. -/
def CloseReason.frame : Option CloseReason → Frame
  | some reason => .close reason.code reason.text
  | none => { opcode := .close }

/-- A message, or a control message. -/
inductive Message where
  | text (content : String)
  | binary (content : Bytes)
  | ping (payload : Bytes)
  | pong (payload : Bytes)
  | close (reason : Option CloseReason)
  deriving DecidableEq, Repr

/-- How frames can fail to make up messages. -/
inductive Violation where
  /-- A message begins before the last one has ended. -/
  | nestedMessage
  /-- A message goes on that has not begun. -/
  | strayContinuation
  deriving DecidableEq, Repr

/-- What the error says. -/
def Violation.message : Violation → String
  | .nestedMessage => "new message inside a fragmented one"
  | .strayContinuation => "continuation without a message"

/-- Failures of a WebSocket. -/
inductive WebSocketError where
  | transport (e : TransportError)
  | frame (e : FrameError)
  | violation (e : Violation)
  | invalidUtf8
  | messageTooLarge (limit : Nat)
  | compression (text : String)
  /-- A close frame has been sent, and nothing may follow it. -/
  | closed
  deriving DecidableEq, Repr

namespace WebSocketError

/-- What the error says. -/
def message : WebSocketError → String
  | .transport e => "websocket io: " ++ e.message
  | .frame e => "websocket protocol: " ++ e.message
  | .violation e => "websocket: " ++ e.message
  | .invalidUtf8 => "websocket: text message is not valid UTF-8"
  | .messageTooLarge limit => "websocket: message exceeds " ++ String.ofList (decimal limit) ++ " bytes"
  | .compression text => "websocket: compression failure: " ++ text
  | .closed => "websocket: connection closed"

/-- The code that tells the peer what it did wrong. -/
def closeCode? : WebSocketError → Option UInt16
  | .frame (.tooLarge _ _) | .messageTooLarge _ => some 1009
  | .frame _ | .violation _ => some 1002
  | .invalidUtf8 | .compression _ => some 1007
  | .transport _ | .closed => none

end WebSocketError
end HttpServer
