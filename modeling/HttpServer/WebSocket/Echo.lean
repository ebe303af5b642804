import HttpServer.Reply
import HttpServer.WebSocket
import HttpServer.WebSocket.Handshake

/-!
# Echoes — a service over WebSockets

Every text and every run of bytes is sent back, until the peer is gone or a message cannot be sent.  A word
may be agreed upon that closes the connection instead of being sent back.
-/

namespace HttpServer.WebSocket

variable [Deflate.Codec]

/-- What is done with a message; the answer is whether the message could be sent. -/
def answer (farewell : Option String) (m : Message) (ws : WebSocket) :
    Except WebSocketError Unit × WebSocket :=
  match m with
  | .text content =>
    if farewell = some content then ws.close (some .normal) else ws.send (.text content)
  | .binary content => ws.send (.binary content)
  | _ => (.ok (), ws)

theorem remaining_of_answer {farewell : Option String} {m : Message} {ws ws' : WebSocket}
    {r : Except WebSocketError Unit} (h : ws.answer farewell m = (r, ws')) :
    ws'.remaining = ws.remaining := by
  unfold answer at h
  split at h
  · split at h
    · simp only [close, Prod.mk.injEq] at h
      rw [← h.2]
      rfl
    · exact remaining_of_send h
  · exact remaining_of_send h
  · simp only [Prod.mk.injEq] at h
    rw [h.2]

/-- Send messages back until the connection ends; the answer is the failure that ended it, if it was one of
the stream. -/
def echo (farewell : Option String) (ws : WebSocket) : Option TransportError × WebSocket :=
  match _ : ws.recv with
  | (.error (.transport e), ws) => (some e, ws)
  | (.error _, ws) => (none, ws)
  | (.ok none, ws) => (none, ws)
  | (.ok (some m), ws₁) =>
    match _ : ws₁.answer farewell m with
    | (.error (.transport e), ws) => (some e, ws)
    | (.error _, ws) => (none, ws)
    | (.ok (), ws) => echo farewell ws
termination_by ws.remaining.length
decreasing_by
  have hRecv := length_of_recv (by assumption)
  have hAnswer : ws.remaining = ws₁.remaining := remaining_of_answer (by assumption)
  rw [hAnswer]
  exact hRecv

/-- The stream with everything that a WebSocket has written to it. -/
def toUpgraded (ws : WebSocket) : Upgraded :=
  { ws.io with outbound :=
      { ws.io.outbound with writes := ws.dialog.written.flatMap Frame.encode :: ws.io.outbound.writes } }

/-- Take a connection over as a WebSocket that sends messages back. -/
def echoHijacker (config : WebSocketConfig) (compressed : Bool) (farewell : Option String) : Hijacker :=
  fun stream =>
    let ws : WebSocket :=
      { io := stream, dialog := { config, compressed, writeFailure := stream.outbound.failure } }
    let (failure, ws) := ws.echo farewell
    (ws.toUpgraded, failure)

/-- Answer a request that wants to become such a WebSocket. -/
def upgrade (config : WebSocketConfig) (farewell : Option String) (r : Request) : Reply :=
  match Handshake.agree config r with
  | .error e => .ofError (.upgrade e)
  | .ok a => .hijack a.response (echoHijacker config a.compressed farewell)

end HttpServer.WebSocket
