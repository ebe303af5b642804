import HttpServer.Connection.Upgraded
import HttpServer.WebSocket.Dialog

/-!
# WebSockets

A WebSocket reads frames off its stream and hands them to its dialog until one of them completes a message.
The frames are taken off the bytes that were read but not used and those still to come, taken together
(`WebSocket.remaining`), so the messages do not depend on how the bytes arrive in pieces.

Once the peer has closed, or has broken the rules, nothing more is read.
-/

namespace HttpServer

/-- An established WebSocket. -/
structure WebSocket where
  io : Upgraded
  /-- Bytes that were read but are not used yet. -/
  buffered : Bytes := []
  dialog : Dialog := {}
  deriving DecidableEq, Repr

namespace WebSocket

/-- The most bytes that one read asks for. -/
def readSize : Nat := 65536

/-- All bytes that have not been used yet. -/
def remaining (ws : WebSocket) : Bytes :=
  ws.buffered ++ ws.io.remaining

/-- What frames have to look like: clients put theirs under a mask. -/
def decodeOptions (ws : WebSocket) : DecodeOptions :=
  { maxFrameSize := ws.dialog.config.maxFrameSize, allowCompressed := ws.dialog.compressed,
    requireMask := true }

/-- Read one frame; there is none at the end of the stream, unless it comes in the middle of a frame. -/
def readFrame (ws : WebSocket) : Except WebSocketError (Option Frame) × WebSocket :=
  match Frame.takeFront ws.decodeOptions ws.buffered with
  | (.error e, buffered) => (.error (.frame e), { ws with buffered, dialog := ws.dialog.abandon (.frame e) })
  | (.ok (some f), buffered) => (.ok (some f), { ws with buffered })
  | (.ok none, buffered) =>
    match _ : ws.io.read readSize with
    | .error e => (.error (.transport e), { ws with buffered })
    | .ok ([], io) =>
      (if buffered.isEmpty then .ok none else .error (.transport .endOfStream), { ws with buffered, io })
    | .ok (b :: bs, io) => readFrame { ws with io, buffered := buffered ++ b :: bs }
termination_by ws.io.remaining.length
decreasing_by
  have hRead : ws.io.remaining = (b :: bs) ++ io.remaining := Upgraded.remaining_of_read (by assumption)
  rw [hRead, List.length_append, List.length_cons]
  omega

/-- A frame that was read came off the front of the bytes, and it leaves the dialog as it was. -/
theorem remaining_of_readFrame {ws ws' : WebSocket} {f : Frame} (h : ws.readFrame = (.ok (some f), ws')) :
    (∃ wire, 2 ≤ wire.length ∧ ws.remaining = wire ++ ws'.remaining) ∧ ws'.dialog = ws.dialog := by
  fun_induction readFrame ws with
  | case1 => simp at h
  | case2 ws g rest hTake =>
    simp only [Prod.mk.injEq, Except.ok.injEq, Option.some.injEq] at h
    obtain ⟨-, rfl⟩ := h
    obtain ⟨wire, hWire, hBuffered⟩ := Frame.append_of_decode (Frame.takeFront_eq_frame_iff.mp hTake)
    exact ⟨⟨wire, hWire, by simp [remaining, hBuffered]⟩, rfl⟩
  | case3 => simp at h
  | case4 ws buffered hTake io hRead =>
    simp only [Prod.mk.injEq] at h
    split at h <;> simp at h
  | case5 ws buffered hTake b bs io hRead ih =>
    obtain ⟨-, rfl⟩ := Frame.takeFront_eq_none_iff.mp hTake
    obtain ⟨⟨wire, hWire, hRest⟩, hDialog⟩ := ih h
    refine ⟨⟨wire, hWire, ?_⟩, hDialog⟩
    rw [← hRest]
    simp [remaining, Upgraded.remaining_of_read hRead]

variable [Deflate.Codec]

/-- The next message; there is none when the peer is gone or has closed. -/
def recv (ws : WebSocket) : Except WebSocketError (Option Message) × WebSocket :=
  if ws.dialog.closeReceived then (.ok none, ws)
  else
    match _ : ws.readFrame with
    | (.error e, ws) => (.error e, ws)
    | (.ok none, ws) => (.ok none, ws)
    | (.ok (some f), ws₁) =>
      match ws₁.dialog.handle f with
      | (.ok (some m), dialog) => (.ok (some m), { ws₁ with dialog })
      | (.ok none, dialog) => recv { ws₁ with dialog }
      | (.error e, dialog) => (.error e, { ws₁ with dialog := dialog.abandon e })
termination_by ws.remaining.length
decreasing_by
  obtain ⟨⟨wire, hWire, hRest⟩, -⟩ := remaining_of_readFrame (by assumption)
  simp only [hRest, List.length_append]
  simp only [remaining]
  omega

/-- A message that was received came off the front of the bytes. -/
theorem length_of_recv {ws ws' : WebSocket} {m : Message} (h : ws.recv = (.ok (some m), ws')) :
    ws'.remaining.length < ws.remaining.length := by
  fun_induction recv ws with
  | case1 => simp at h
  | case2 => simp at h
  | case3 => simp at h
  | case4 ws hOpen f ws₁ hRead m' dialog hHandle =>
    simp only [Prod.mk.injEq] at h
    obtain ⟨-, rfl⟩ := h
    obtain ⟨⟨wire, hWire, hRest⟩, -⟩ := remaining_of_readFrame hRead
    rw [hRest, List.length_append]
    simp only [remaining]
    omega
  | case5 ws hOpen f ws₁ hRead dialog hHandle ih =>
    obtain ⟨⟨wire, hWire, hRest⟩, -⟩ := remaining_of_readFrame hRead
    have hNext := ih h
    simp only [hRest, List.length_append]
    simp only [remaining] at hNext ⊢
    omega
  | case6 => simp at h

/-- Send a message. -/
def send (m : Message) (ws : WebSocket) : Except WebSocketError Unit × WebSocket :=
  let (r, dialog) := ws.dialog.send m
  (r, { ws with dialog })

/-- Begin to close, or answer the peer that did. -/
def close (reason : Option CloseReason) (ws : WebSocket) : Except WebSocketError Unit × WebSocket :=
  let (r, dialog) := ws.dialog.sendClose reason
  (r, { ws with dialog })

theorem remaining_of_send {m : Message} {ws ws' : WebSocket} {r : Except WebSocketError Unit}
    (h : ws.send m = (r, ws')) : ws'.remaining = ws.remaining := by
  simp only [send, Prod.mk.injEq] at h
  rw [← h.2]
  rfl

/-- Let one more chunk arrive. -/
def feed (ws : WebSocket) (chunk : Bytes) : WebSocket :=
  { ws with io := ws.io.feed chunk }

/-- Let writing fail from now on, or work again. -/
def failWrites (ws : WebSocket) (failure : Option TransportError) : WebSocket :=
  { ws with dialog := { ws.dialog with writeFailure := failure } }

end WebSocket
end HttpServer
