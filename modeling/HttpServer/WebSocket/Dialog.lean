import HttpServer.Deflate.Inflate
import HttpServer.WebSocket.Message

/-!
# Dialogs — what a WebSocket does with the frames of its peer

A dialog is all of a WebSocket but the stream it reads from: the message under way, how far closing has come,
and the frames that were written.  Each frame of the peer is handled by `Dialog.handle`: a ping is answered,
a close frame is echoed, and a fragment joins the message under way, whose last fragment completes it.

One close frame is sent at most, and it is remembered before it is written, so a failure to write it does not
send a second one.

Messages are compressed and decompressed by some `Deflate.Codec`, which may fail.
-/

namespace HttpServer

/-- Settings of a WebSocket. -/
structure WebSocketConfig where
  /-- Compress messages if the client asks for it. -/
  enableCompression : Bool := false
  maxFrameSize : Nat := 1048576
  /-- The most bytes of a message, put together and decompressed. -/
  maxMessageSize : Nat := 4194304
  deriving DecidableEq, Repr

/-- The kinds of messages that can be sent in fragments. -/
inductive DataKind where
  | text
  | binary
  deriving DecidableEq, Repr

/-- The opcode of a first fragment. -/
def DataKind.opcode : DataKind → Opcode
  | .text => .text
  | .binary => .binary

/-- The fragments of a message that has not ended. -/
structure Assembly where
  kind : DataKind
  compressed : Bool
  data : Bytes
  deriving DecidableEq, Repr

/-- A WebSocket without its stream. -/
structure Dialog where
  config : WebSocketConfig := {}
  /-- Whether messages are compressed. -/
  compressed : Bool := false
  assembly : Option Assembly := none
  closeSent : Bool := false
  closeReceived : Bool := false
  /-- All frames that were written, the first one first. -/
  written : List Frame := []
  /-- What keeps frames from being written. -/
  writeFailure : Option TransportError := none
  deriving DecidableEq, Repr

namespace Dialog

variable [Deflate.Codec]

/-- Whether one side has begun to close. -/
def isClosed (d : Dialog) : Bool :=
  d.closeReceived || d.closeSent

/-- Write one frame. -/
def write (f : Frame) (d : Dialog) : Except WebSocketError Unit × Dialog :=
  match d.writeFailure with
  | some e => (.error (.transport e), d)
  | none => (.ok (), { d with written := d.written ++ [f] })

/-- Send a close frame, unless one was sent before. -/
def sendClose (reason : Option CloseReason) (d : Dialog) : Except WebSocketError Unit × Dialog :=
  if d.closeSent then (.ok (), d)
  else ({ d with closeSent := true }).write (CloseReason.frame reason)

/-- A frame with a whole message. -/
def dataFrame (kind : DataKind) (payload : Bytes) (d : Dialog) : Except WebSocketError Frame :=
  if d.compressed then
    match Deflate.deflate payload with
    | .ok payload => .ok { opcode := kind.opcode, rsv1 := true, payload }
    | .error text => .error (.compression text)
  else .ok { opcode := kind.opcode, payload }

/-- Send a whole message in one frame. -/
def sendData (kind : DataKind) (payload : Bytes) (d : Dialog) : Except WebSocketError Unit × Dialog :=
  match d.dataFrame kind payload with
  | .ok f => d.write f
  | .error e => (.error e, d)

/-- Send a message in one frame.  Behind a close frame nothing is sent. -/
def send (m : Message) (d : Dialog) : Except WebSocketError Unit × Dialog :=
  if d.closeSent then (.error .closed, d)
  else
    match m with
    | .text content => d.sendData .text (Utf8.ofText content)
    | .binary content => d.sendData .binary content
    | .ping payload => d.write (.ping payload)
    | .pong payload => d.write (.pong payload)
    | .close reason => d.sendClose reason

/-- Refuse a message of more bytes than are allowed. -/
def checkSize (n : Nat) (d : Dialog) : Except WebSocketError Unit :=
  if d.config.maxMessageSize < n then .error (.messageTooLarge d.config.maxMessageSize) else .ok ()

/-- The message of all its fragments. -/
def finish (a : Assembly) (d : Dialog) : Except WebSocketError Message := do
  let data ← if a.compressed then
      match Deflate.inflate d.config.maxMessageSize a.data with
      | .ok data => .ok data
      | .error (.failed text) => .error (.compression text)
      | .error (.tooLarge limit) => .error (.messageTooLarge limit)
    else .ok a.data
  match a.kind with
  | .binary => return .binary data
  | .text =>
    match Utf8.toText? data with
    | some content => return .text content
    | none => .error .invalidUtf8

/-- Keep the fragments so far, or complete the message if `fin` says that they are all. -/
def assemble (fin : Bool) (a : Assembly) (d : Dialog) : Except WebSocketError (Option Message) × Dialog :=
  match d.checkSize a.data.length with
  | .error e => (.error e, d)
  | .ok () =>
    if fin then ((d.finish a).map some, d)
    else (.ok none, { d with assembly := some a })

/-- Begin a message. -/
def begin (kind : DataKind) (f : Frame) (d : Dialog) : Except WebSocketError (Option Message) × Dialog :=
  if d.assembly.isSome then (.error (.violation .nestedMessage), d)
  else d.assemble f.fin { kind, compressed := f.rsv1, data := f.payload }

/-- Go on with the message under way. -/
def extend (f : Frame) (d : Dialog) : Except WebSocketError (Option Message) × Dialog :=
  match d.assembly with
  | none => (.error (.violation .strayContinuation), d)
  | some a => ({ d with assembly := none }).assemble f.fin { a with data := a.data ++ f.payload }

/-- Handle one frame of the peer; the answer is a message if it completes one. -/
def handle (f : Frame) (d : Dialog) : Except WebSocketError (Option Message) × Dialog :=
  match f.opcode with
  | .ping =>
    match d.write (.pong f.payload) with
    | (.error e, d) => (.error e, d)
    | (.ok (), d) => (.ok none, d)
  | .pong => (.ok none, d)
  | .close =>
    let reason := CloseReason.parse? f.payload
    match ({ d with closeReceived := true }).sendClose reason with
    | (.error e, d) => (.error e, d)
    | (.ok (), d) => (.ok (some (.close reason)), d)
  | .text => d.begin .text f
  | .binary => d.begin .binary f
  | .continuation => d.extend f

/-- Give up after a failure: tell the peer if it is to blame, and take nothing more from it. -/
def abandon (e : WebSocketError) (d : Dialog) : Dialog :=
  let d := match e.closeCode? with
    | some code => (d.sendClose (some ⟨code, ""⟩)).2
    | none => d
  { d with closeReceived := true }

end Dialog
end HttpServer
