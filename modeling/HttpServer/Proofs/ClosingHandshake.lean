import HttpServer.Deflate.Stored
import HttpServer.Proofs.Receiving
import Mathlib.Data.List.Induction

/-!
# The closing handshake

Five things make a WebSocket write: the application sends something or closes, a ping is answered, a close frame is
echoed, and a failure is reported.  Whatever the application does, and in whatever order the frames of the peer come
in between, one close frame is written at most, and what is written behind it are pongs
(`WebSocket.run_closing_handshake`).

`WebSocket.Turn` says what one call can do, and `WebSocket.Past` what is true after any number of them.
-/

namespace HttpServer

namespace Dialog

variable {d : Dialog} {f : Frame} {fs : List Frame} {r : Except WebSocketError (Option Message)}

/-! ## Sending -/

/-- What sending can do. -/
inductive Sending (d : Dialog) : Dialog → Prop
  | nothing : Sending d d
  | frame (f : Frame) (hSent : d.closeSent = false) (hKind : f.opcode ≠ .close) :
    Sending d { d with written := d.written ++ [f] }
  | close (f : Frame) (hSent : d.closeSent = false) :
    Sending d { d with closeSent := true, written := d.written ++ [f] }
  /-- A close frame could not be written. -/
  | deafClose (hSent : d.closeSent = false) : Sending d { d with closeSent := true }

theorem sending_write (hSent : d.closeSent = false) (hKind : f.opcode ≠ .close) :
    Sending d (d.write f).2 := by
  unfold write
  split
  · exact .nothing
  · exact .frame f hSent hKind

theorem sending_sendClose (reason : Option CloseReason) (d : Dialog) : Sending d (d.sendClose reason).2 := by
  cases hSent : d.closeSent with
  | true => simpa [sendClose, hSent] using Sending.nothing
  | false =>
    cases hWrites : d.writeFailure with
    | some e => simpa [sendClose, write, hSent, hWrites] using Sending.deafClose hSent
    | none => simpa [sendClose, write, hSent, hWrites] using Sending.close (CloseReason.frame reason) hSent

section Data

variable [Deflate.Codec]

theorem opcode_of_dataFrame {kind : DataKind} {payload : Bytes} (h : d.dataFrame kind payload = .ok f) :
    f.opcode = kind.opcode := by
  unfold dataFrame at h
  split at h
  · split at h
    · cases h
      rfl
    · contradiction
  · cases h
    rfl

/-- A message that cannot be compressed is not sent. -/
theorem sending_sendData (hSent : d.closeSent = false) (kind : DataKind) (payload : Bytes) :
    Sending d (d.sendData kind payload).2 := by
  unfold sendData
  split
  · rename_i f hFrame
    refine sending_write hSent ?_
    rw [opcode_of_dataFrame hFrame]
    cases kind <;> simp [DataKind.opcode]
  · exact .nothing

theorem sending_send (m : Message) (d : Dialog) : Sending d (d.send m).2 := by
  unfold send
  cases hSent : d.closeSent with
  | true => exact .nothing
  | false =>
    cases m with
    | text content => exact sending_sendData hSent _ _
    | binary content => exact sending_sendData hSent _ _
    | ping payload => exact sending_write hSent (by simp [Frame.ping])
    | pong payload => exact sending_write hSent (by simp [Frame.pong])
    | close reason => exact sending_sendClose reason d

end Data

/-! ## Receiving -/

/-- Behind a close frame only pings are answered. -/
theorem answers_sublist_pongs (hSent : d.closeSent = true) : (d.answers fs r).Sublist (pongs fs) := by
  simp only [answers, hSent, if_true, List.append_nil]
  split
  · exact List.nil_sublist _
  · exact List.Sublist.refl _

/-- There is one close frame at the end of a call at most. -/
theorem length_farewell_le (r : Except WebSocketError (Option Message)) : (farewell r).length ≤ 1 := by
  unfold farewell
  split
  · simp
  · simp
  · cases WebSocketError.closeCode? _ <;> simp

/-- A call writes pongs, and a close frame behind them at most. -/
theorem opcode_of_mem_dropLast_answers (h : f ∈ (d.answers fs r).dropLast) : f.opcode = .pong := by
  suffices hPong : f ∈ pongs fs from opcode_of_mem_pongs hPong
  unfold answers at h
  split at h
  · simp at h
  split at h
  · exact List.dropLast_subset _ (by simpa using h)
  cases hLast : farewell r with
  | nil => exact List.dropLast_subset _ (by simpa [hLast] using h)
  | cons g gs =>
    have hOne := length_farewell_le r
    obtain rfl : gs = [] := by simpa [hLast] using hOne
    simpa [hLast] using h

theorem farewell_ne_nil (h : f ∈ d.answers fs r) (hClose : f.opcode = .close) : farewell r ≠ [] := by
  unfold answers at h
  split at h
  · simp at h
  rcases List.mem_append.mp h with h | h
  · simp [opcode_of_mem_pongs h] at hClose
  · split at h
    · simp at h
    · exact List.ne_nil_of_mem h

end Dialog

namespace WebSocket

/-! ## One turn -/

/-- What one call can do: it takes some frames off the stream and writes some others. -/
structure Turn (ws : WebSocket) (heard new : List Frame) (ws' : WebSocket) : Prop where
  reads : Frame.Reads ws.decodeOptions ws.remaining heard ws'.remaining
  options : ws'.decodeOptions = ws.decodeOptions
  written : ws'.dialog.written = ws.dialog.written ++ new
  /-- Nothing is heard behind a close frame of the peer. -/
  quiet : ∀ f ∈ heard.dropLast, f.opcode ≠ .close
  openEnd : ws'.dialog.closeReceived = false → ∀ f ∈ heard, f.opcode ≠ .close
  deaf : ws.dialog.closeReceived = true → heard = [] ∧ ws'.dialog.closeReceived = true
  /-- A close frame is the last frame of its call, and it is remembered. -/
  last : ∀ f ∈ new.dropLast, f.opcode ≠ .close
  remembered : (∃ f ∈ new, f.opcode = .close) → ws'.dialog.closeSent = true
  /-- Behind a close frame only pings are answered. -/
  pongs : ws.dialog.closeSent = true → ws'.dialog.closeSent = true ∧ new.Sublist (pongs heard)

variable {ws ws' : WebSocket}

/-- A call that hears nothing writes one frame at most, and none behind a close frame. -/
theorem turn_of_silent {new : List Frame} (hRest : ws'.remaining = ws.remaining)
    (hOptions : ws'.decodeOptions = ws.decodeOptions)
    (hReceived : ws'.dialog.closeReceived = ws.dialog.closeReceived)
    (hWritten : ws'.dialog.written = ws.dialog.written ++ new) (hOne : new.length ≤ 1)
    (hRemembered : (∃ f ∈ new, f.opcode = .close) → ws'.dialog.closeSent = true)
    (hSent : ws.dialog.closeSent = true → ws'.dialog.closeSent = true ∧ new = []) : Turn ws [] new ws' where
  reads := by
    rw [hRest]
    exact .nil _
  options := hOptions
  written := hWritten
  quiet := by simp
  openEnd := by simp
  deaf := fun hClosed => ⟨rfl, hReceived.trans hClosed⟩
  last := by
    have hNone : new.dropLast = [] := List.eq_nil_of_length_eq_zero (by simp; omega)
    simp [hNone]
  remembered := hRemembered
  pongs := by
    intro hClosed
    obtain ⟨hStill, rfl⟩ := hSent hClosed
    exact ⟨hStill, List.nil_sublist _⟩

theorem turn_of_sending {d : Dialog} (h : ws.dialog.Sending d) : ∃ new, Turn ws [] new { ws with dialog := d } := by
  cases h with
  | nothing => exact ⟨[], turn_of_silent rfl rfl rfl (by simp) (by simp) (by simp) fun hSent => ⟨hSent, rfl⟩⟩
  | frame f hSent hKind => exact ⟨[f], turn_of_silent rfl rfl rfl rfl (by simp) (by simp [hKind]) (by simp [hSent])⟩
  | close f hSent => exact ⟨[f], turn_of_silent rfl rfl rfl rfl (by simp) (by simp) (by simp [hSent])⟩
  | deafClose => exact ⟨[], turn_of_silent rfl rfl rfl (by simp) (by simp) (by simp) fun _ => ⟨rfl, rfl⟩⟩

namespace Turn

variable {heard more new : List Frame}

theorem countP_of_closeSent (h : Turn ws heard new ws') (hSent : ws.dialog.closeSent = true) :
    new.countP (·.opcode = .close) = 0 := by
  rw [List.countP_eq_zero]
  intro f hf
  simp [opcode_of_mem_pongs ((h.pongs hSent).2.subset hf)]

/-- A call writes a close frame only if there was none before, and remembers it. -/
theorem closeSent_add_countP_le (h : Turn ws heard new ws') :
    ws.dialog.closeSent.toNat + new.countP (·.opcode = .close) ≤ ws'.dialog.closeSent.toNat := by
  cases hSent : ws.dialog.closeSent with
  | true => simp [h.countP_of_closeSent hSent, (h.pongs hSent).1]
  | false =>
    rcases List.eq_nil_or_concat new with rfl | ⟨front, f, rfl⟩
    · simp
    have hFront : front.countP (·.opcode = .close) = 0 := by
      rw [List.countP_eq_zero]
      simpa using h.last
    by_cases hClose : f.opcode = .close
    · have hRemembered := h.remembered ⟨f, by simp, hClose⟩
      simp [hFront, hRemembered, List.countP_append, hClose]
    · simp [hFront, List.countP_append, hClose]

theorem closeReceived_of_closeReceived (h : Turn ws heard new ws') (hOpen : ws'.dialog.closeReceived = false) :
    ws.dialog.closeReceived = false := by
  by_contra hClosed
  simp [(h.deaf (by simpa using hClosed)).2] at hOpen

end Turn

/-! ## Calls -/

/-- What an application can do with a WebSocket, and what can happen to it in the meantime. -/
inductive Call where
  | recv
  | send (m : Message)
  | close (reason : Option CloseReason)
  /-- Writing fails from now on, or works again. -/
  | failWrites (failure : Option TransportError)
  deriving DecidableEq, Repr

variable [Deflate.Codec]

/-- The WebSocket that a call leaves. -/
def perform (ws : WebSocket) : Call → WebSocket
  | .recv => ws.recv.2
  | .send m => (ws.send m).2
  | .close reason => (ws.close reason).2
  | .failWrites failure => ws.failWrites failure

/-- The WebSocket that some calls leave, one after the other. -/
def run (ws : WebSocket) (calls : List Call) : WebSocket :=
  calls.foldl perform ws

theorem run_concat (ws : WebSocket) (calls : List Call) (call : Call) :
    ws.run (calls ++ [call]) = (ws.run calls).perform call := by
  simp [run]

theorem turn_recv (ws : WebSocket) : ∃ heard new, Turn ws heard new ws.recv.2 := by
  obtain ⟨heard, hHears, hReads⟩ := recv_hears ws
  have hSettings := hHears.settings
  have hClose := hHears.opcode_ne_close
  refine ⟨heard, ws.dialog.answers heard ws.recv.1, hReads, ?_, hHears.written, hClose.1, hClose.2, ?_, ?_, ?_, ?_⟩
  · simp only [decodeOptions, hSettings.1, hSettings.2]
  · intro hClosed
    obtain ⟨hNone, hSame⟩ := hHears.eq_nil_of_closeReceived hClosed
    rw [hSame]
    exact ⟨hNone, hClosed⟩
  · intro f hf
    simp [Dialog.opcode_of_mem_dropLast_answers hf]
  · rintro ⟨f, hf, hOpcode⟩
    exact hHears.closeSent (.inr (Dialog.farewell_ne_nil hf hOpcode))
  · intro hSent
    exact ⟨hHears.closeSent (.inl hSent), Dialog.answers_sublist_pongs hSent⟩

theorem turn_perform (ws : WebSocket) (call : Call) : ∃ heard new, Turn ws heard new (ws.perform call) := by
  cases call with
  | recv => exact turn_recv ws
  | send m => exact ⟨[], turn_of_sending (Dialog.sending_send m ws.dialog)⟩
  | close reason => exact ⟨[], turn_of_sending (Dialog.sending_sendClose reason ws.dialog)⟩
  | failWrites failure =>
    have hWritten : (ws.failWrites failure).dialog.written = ws.dialog.written ++ [] := by simp [failWrites]
    exact ⟨[], [], turn_of_silent rfl rfl rfl hWritten (by simp) (by simp) fun hSent => ⟨hSent, rfl⟩⟩

/-! ## Any number of calls -/

/-- Among the frames that some calls write, in which some frames are heard, `last` is followed by pongs alone: one of
the calls ends with writing `last`, and the pongs answer pings that were heard after this call, each at most once and in
their order. -/
def PongsBehind (start : WebSocket) (calls : List Call) (heard before : List Frame) (last : Frame)
    (after : List Frame) : Prop :=
  ∃ early late earlier later, calls = early ++ late ∧ heard = earlier ++ later ∧
    (start.run early).dialog.written = before ++ [last] ∧
    Frame.Reads start.decodeOptions start.remaining earlier (start.run early).remaining ∧
    Frame.Reads start.decodeOptions (start.run early).remaining later (start.run calls).remaining ∧
    after.Sublist (pongs later)

/-- What is true after some calls, in which some frames were heard. -/
structure Past (start : WebSocket) (calls : List Call) (heard : List Frame) : Prop where
  reads : Frame.Reads start.decodeOptions start.remaining heard (start.run calls).remaining
  options : (start.run calls).decodeOptions = start.decodeOptions
  /-- Nothing is heard behind a close frame of the peer. -/
  quiet : ∀ f ∈ heard.dropLast, f.opcode ≠ .close
  openEnd : (start.run calls).dialog.closeReceived = false → ∀ f ∈ heard, f.opcode ≠ .close
  /-- A close frame is remembered, so there is one at most. -/
  count : (start.run calls).dialog.written.countP (·.opcode = .close) ≤ (start.run calls).dialog.closeSent.toNat
  behind : ∀ before last after, (start.run calls).dialog.written = before ++ last :: after → last.opcode = .close →
    PongsBehind start calls heard before last after

namespace Past

variable {start : WebSocket} {calls : List Call} {call : Call} {heard more new : List Frame}

theorem nil (h : start.dialog.written = []) : Past start [] [] where
  reads := .nil _
  options := rfl
  quiet := by simp
  openEnd := by simp
  count := by simp [run, h]
  behind := by simp [run, h]

theorem quiet_append (h : Past start calls heard) (hTurn : Turn (start.run calls) more new ws') :
    ∀ f ∈ (heard ++ more).dropLast, f.opcode ≠ .close := by
  cases hClosed : (start.run calls).dialog.closeReceived with
  | true =>
    obtain ⟨rfl, -⟩ := hTurn.deaf hClosed
    simpa using h.quiet
  | false =>
    intro f hf
    cases more with
    | nil => exact h.quiet f (by simpa using hf)
    | cons g gs =>
      rw [List.dropLast_append_of_ne_nil (List.cons_ne_nil g gs)] at hf
      rcases List.mem_append.mp hf with hf | hf
      · exact h.openEnd hClosed f hf
      · exact hTurn.quiet f hf

theorem closeSent_of_mem (h : Past start calls heard) {f : Frame} (hf : f ∈ (start.run calls).dialog.written)
    (hClose : f.opcode = .close) : (start.run calls).dialog.closeSent = true := by
  have hSome : 0 < (start.run calls).dialog.written.countP (·.opcode = .close) :=
    List.countP_pos_iff.mpr ⟨f, hf, by simpa using hClose⟩
  have hCount := h.count
  cases hSent : (start.run calls).dialog.closeSent with
  | true => rfl
  | false =>
    rw [hSent] at hCount
    exact absurd hSome (Nat.not_lt.mpr hCount)

/-- A call after the close frame was written adds the pongs for what it hears. -/
theorem pongsBehind_of_written (h : Past start calls heard)
    (hTurn : Turn (start.run calls) more new (start.run (calls ++ [call]))) {before after : List Frame} {last : Frame}
    (hWritten : (start.run calls).dialog.written = before ++ last :: after) (hClose : last.opcode = .close) :
    PongsBehind start (calls ++ [call]) (heard ++ more) before last (after ++ new) := by
  obtain ⟨early, late, earlier, later, rfl, rfl, hLast, hEarlier, hLater, hPongs⟩ := h.behind _ _ _ hWritten hClose
  have hSent := h.closeSent_of_mem (hWritten ▸ by simp) hClose
  refine ⟨early, late ++ [call], earlier, later ++ more, by simp, by simp, hLast, hEarlier, ?_, ?_⟩
  · exact hLater.append (h.options ▸ hTurn.reads)
  · rw [pongs_append]
    exact hPongs.append (hTurn.pongs hSent).2

/-- The call that writes the close frame writes nothing behind it. -/
theorem pongsBehind_of_new (h : Past start calls heard)
    (hTurn : Turn (start.run calls) more new (start.run (calls ++ [call]))) {front after : List Frame} {last : Frame}
    (hNew : new = front ++ last :: after) (hClose : last.opcode = .close) :
    PongsBehind start (calls ++ [call]) (heard ++ more) ((start.run calls).dialog.written ++ front) last after := by
  obtain rfl : after = [] := by
    by_contra hSome
    refine hTurn.last last ?_ hClose
    rw [hNew, List.dropLast_append_of_ne_nil (List.cons_ne_nil _ _), List.dropLast_cons_of_ne_nil hSome]
    simp
  refine ⟨calls ++ [call], [], heard ++ more, [], by simp, by simp, ?_, ?_, .nil _, List.nil_sublist _⟩
  · simp [hTurn.written, hNew]
  · exact h.reads.append (h.options ▸ hTurn.reads)

/-- One call more. -/
theorem concat (h : Past start calls heard) (hTurn : Turn (start.run calls) more new (start.run (calls ++ [call]))) :
    Past start (calls ++ [call]) (heard ++ more) where
  reads := h.reads.append (h.options ▸ hTurn.reads)
  options := hTurn.options.trans h.options
  quiet := h.quiet_append hTurn
  openEnd := by
    intro hOpen f hf
    rcases List.mem_append.mp hf with hf | hf
    · exact h.openEnd (hTurn.closeReceived_of_closeReceived hOpen) f hf
    · exact hTurn.openEnd hOpen f hf
  count := by
    rw [hTurn.written, List.countP_append]
    have hBefore := h.count
    have hNew := hTurn.closeSent_add_countP_le
    omega
  behind := by
    intro before last after hWritten hClose
    -- The close frame is among the frames of this call, or it was written before.
    rw [hTurn.written, List.append_eq_append_iff] at hWritten
    rcases hWritten with ⟨front, rfl, hNew⟩ | ⟨back, hOld, hBack⟩
    · exact h.pongsBehind_of_new hTurn hNew hClose
    cases back with
    | nil =>
      obtain rfl : (start.run calls).dialog.written = before := by simpa using hOld
      have hFirst : new = [] ++ last :: after := hBack.symm
      simpa using h.pongsBehind_of_new hTurn hFirst hClose
    | cons f back =>
      obtain ⟨rfl, rfl⟩ := List.cons.inj hBack
      exact h.pongsBehind_of_written hTurn hOld hClose

end Past

theorem exists_past {start : WebSocket} (h : start.dialog.written = []) (calls : List Call) :
    ∃ heard, Past start calls heard := by
  induction calls using List.reverseRecOn with
  | nil => exact ⟨[], .nil h⟩
  | append_singleton calls call ih =>
    obtain ⟨heard, hPast⟩ := ih
    obtain ⟨more, new, hTurn⟩ := turn_perform (start.run calls) call
    rw [← run_concat] at hTurn
    exact ⟨heard ++ more, hPast.concat hTurn⟩

/-- **The closing handshake.**  Whatever arrives on the stream, and whatever the application does with a WebSocket, in
any order: at most one close frame is written.  Behind it there are pongs alone, for pings that were heard after it was
written and before a close frame of the peer, if there was one.  And once it is written, nothing can be sent. -/
theorem run_closing_handshake (config : WebSocketConfig) (compressed : Bool) (io : Upgraded) (calls : List Call) :
    let start : WebSocket := { io, dialog := { config, compressed } }
    let ws := start.run calls
    ws.dialog.written.countP (·.opcode = .close) ≤ 1 ∧
      (∃ heard, Frame.Reads start.decodeOptions start.remaining heard ws.remaining ∧
        (∀ f ∈ heard.dropLast, f.opcode ≠ .close) ∧
        ∀ before last after, ws.dialog.written = before ++ last :: after → last.opcode = .close →
          PongsBehind start calls heard before last after) ∧
      ((∃ f ∈ ws.dialog.written, f.opcode = .close) → ∀ m, ws.send m = (.error .closed, ws)) := by
  intro start ws
  have hNothing : start.dialog.written = [] := rfl
  obtain ⟨heard, hPast⟩ := exists_past hNothing calls
  refine ⟨?_, ⟨heard, hPast.reads, hPast.quiet, hPast.behind⟩, ?_⟩
  · exact Nat.le_trans hPast.count (Bool.toNat_le _)
  · rintro ⟨f, hf, hClose⟩ m
    simp [send, Dialog.send, ws, hPast.closeSent_of_mem hf hClose]

end WebSocket

section Example

attribute [local instance] Deflate.Codec.stored

namespace WebSocket

/-- The application closes, and then receives a ping and the answer of the peer: the ping is answered behind the close
frame, and nothing more can be sent. -/
theorem run_close_recv :
    let mask : Mask := ⟨0x37, 0xFA, 0x21, 0x3D⟩
    let ping : Frame := { opcode := .ping, mask := some mask, payload := [0x70] }
    let answer : Frame := { opcode := .close, mask := some mask, payload := [] }
    let start : WebSocket := { io := { inbound := { chunks := [ping.encode ++ answer.encode] } } }
    let ws := start.run [.close none, .recv]
    ws.dialog.written = [CloseReason.frame none, .pong [0x70]] ∧ ∀ m, ws.send m = (.error .closed, ws) := by
  intro mask ping answer start ws
  let closed := start.run [.close none]
  have hPing : ping.Permitted closed.decodeOptions := ⟨by decide, by decide, by decide, by decide, by decide⟩
  have hAnswer : answer.Permitted closed.decodeOptions := ⟨by decide, by decide, by decide, by decide, by decide⟩
  have hBytes : closed.remaining = ping.encode ++ answer.encode := by
    simp [closed, run, perform, WebSocket.close, remaining, Upgraded.remaining, Inbound.remaining, start]
  -- The ping is read first.
  have hFirst := Frame.decode_encode hPing answer.encode
  rw [← hBytes] at hFirst
  obtain ⟨ws₁, hRead₁, hRest₁, hDialog₁, -⟩ := readFrame_of_decode hFirst
  have hHandle₁ : ws₁.dialog.handle ping =
      (.ok none, { closeSent := true, written := [CloseReason.frame none, .pong [0x70]] }) := by
    rw [hDialog₁]
    rfl
  -- The answer of the peer is behind it.
  let answered : WebSocket :=
    { ws₁ with dialog := { closeSent := true, written := [CloseReason.frame none, .pong [0x70]] } }
  have hSecond := Frame.decode_encode hAnswer []
  have hBytes' : answered.remaining = answer.encode ++ [] := by simpa [answered, remaining] using hRest₁
  have hOptions : closed.decodeOptions = answered.decodeOptions := rfl
  rw [← hBytes', hOptions] at hSecond
  obtain ⟨ws₂, hRead₂, -, hDialog₂, -⟩ := readFrame_of_decode hSecond
  have hHandle₂ : ws₂.dialog.handle answer = (.ok (some (.close none)),
      { closeSent := true, closeReceived := true, written := [CloseReason.frame none, .pong [0x70]] }) := by
    rw [hDialog₂]
    rfl
  have hWritten : ws.dialog.written = [CloseReason.frame none, .pong [0x70]] := by
    calc
      ws.dialog.written = closed.recv.2.dialog.written := rfl
      _ = answered.recv.2.dialog.written := by rw [recv_of_frame rfl hRead₁ hHandle₁]
      _ = [CloseReason.frame none, .pong [0x70]] := by rw [recv_of_message rfl hRead₂ hHandle₂]
  obtain ⟨-, -, hRefused⟩ := run_closing_handshake {} false start.io [.close none, .recv]
  exact ⟨hWritten, hRefused ⟨CloseReason.frame none, by rw [hWritten]; simp, rfl⟩⟩

end WebSocket

end Example
end HttpServer
