import HttpServer.Proofs.ClosingHandshake

/-!
# Farewells

A call of `recv` that fails may fail because of the peer, and `WebSocketError.Blames` says with which code the peer is
told.  If no close frame was written before, and writing works, then such a call ends with the one close frame that
gives this code and no reason, behind the pongs for the pings that it has heard (`WebSocket.run_farewell`).

After such a failure, and also after the closing message of the peer, the WebSocket is deaf: no call of `recv` finds
anything, reads anything or writes anything, whatever bytes are there (`WebSocket.recv_of_closeReceived`).

A close frame is remembered before it is written, so that one was remembered says that it was written only as long as
writing works.  `Dialog.Honest` is this invariant.
-/

namespace HttpServer

/-! ## Who is to blame -/

/-- The peer is to blame for the failure, and is told so with the code. -/
inductive WebSocketError.Blames : WebSocketError → UInt16 → Prop
  | longFrame (length limit : Nat) : Blames (.frame (.tooLarge length limit)) 1009
  | longMessage (limit : Nat) : Blames (.messageTooLarge limit) 1009
  | badFrame (e : FrameError) (hSize : ∀ length limit, e ≠ .tooLarge length limit) : Blames (.frame e) 1002
  | violation (e : Violation) : Blames (.violation e) 1002
  | badText : Blames .invalidUtf8 1007
  | badCompression (text : String) : Blames (.compression text) 1007

theorem WebSocketError.closeCode?_eq_some_iff {e : WebSocketError} {code : UInt16} :
    e.closeCode? = some code ↔ e.Blames code := by
  constructor
  · intro hCode
    unfold closeCode? at hCode
    split at hCode
    · cases hCode
      exact .longFrame _ _
    · cases hCode
      exact .longMessage _
    · rename_i e hSize
      cases hCode
      exact .badFrame e hSize
    · cases hCode
      exact .violation _
    · cases hCode
      exact .badText
    · cases hCode
      exact .badCompression _
    · contradiction
    · contradiction
  · rintro (_ | _ | ⟨e, hSize⟩ | _ | _ | _)
    case badFrame =>
      cases e with
      | tooLarge length limit => exact absurd rfl (hSize length limit)
      | _ => rfl
    all_goals rfl

/-- With these answers of `recv` the peer has nothing more to say. -/
inductive WebSocket.IsLast : Except WebSocketError (Option Message) → Prop
  | blame (e : WebSocketError) (code : UInt16) (hBlames : e.Blames code) : IsLast (.error e)
  | close (reason : Option CloseReason) : IsLast (.ok (some (.close reason)))

namespace Dialog

variable {d d' : Dialog} {f : Frame} {fs : List Frame} {r : Except WebSocketError (Option Message)}

/-! ## What is remembered was written -/

/-- Writing works, and if a close frame is remembered, it was written. -/
structure Honest (d : Dialog) : Prop where
  writes : d.writeFailure = none
  written : d.closeSent = true → ∃ f ∈ d.written, f.opcode = .close

theorem opcode_closeFrame (reason : Option CloseReason) : (CloseReason.frame reason).opcode = .close := by
  cases reason <;> rfl

namespace Honest

theorem write (h : d.Honest) (f : Frame) : (d.write f).2.Honest := by
  simp only [Dialog.write, h.writes]
  refine ⟨rfl, fun hSent => ?_⟩
  obtain ⟨g, hg, hClose⟩ := h.written hSent
  exact ⟨g, List.mem_append_left _ hg, hClose⟩

theorem sendClose (h : d.Honest) (reason : Option CloseReason) : (d.sendClose reason).2.Honest := by
  cases hSent : d.closeSent with
  | true => simpa [Dialog.sendClose, hSent] using h
  | false =>
    simp only [Dialog.sendClose, hSent, Bool.false_eq_true, if_false, Dialog.write, h.writes]
    exact ⟨rfl, fun _ => ⟨CloseReason.frame reason, by simp, opcode_closeFrame reason⟩⟩

theorem handling (h : d.Honest) (hHandling : Handling d f r d') : d'.Honest := by
  cases hHandling with
  | ping hOpcode hWrites =>
    have hPong := h.write (.pong f.payload)
    simpa [Dialog.write, hWrites] using hPong
  | close hOpcode hSent hWrites =>
    refine ⟨hWrites, fun _ => ⟨CloseReason.frame (CloseReason.parse? f.payload), ?_, opcode_closeFrame _⟩⟩
    simp
  | deafClose hOpcode hSent hFails => simp [h.writes] at hFails
  | deafPing | pong => exact h
  | closed | data => exact ⟨h.writes, h.written⟩

theorem abandon (h : d.Honest) (e : WebSocketError) : (d.abandon e).Honest := by
  unfold Dialog.abandon
  cases e.closeCode? with
  | none => exact ⟨h.writes, h.written⟩
  | some code =>
    have hClosed := h.sendClose (some ⟨code, ""⟩)
    exact ⟨hClosed.writes, hClosed.written⟩

variable [Deflate.Codec]

theorem sendData (h : d.Honest) (kind : DataKind) (payload : Bytes) : (d.sendData kind payload).2.Honest := by
  unfold Dialog.sendData
  split
  · exact h.write _
  · exact h

theorem send (h : d.Honest) (m : Message) : (d.send m).2.Honest := by
  unfold Dialog.send
  split
  · exact h
  · cases m with
    | close reason => exact h.sendClose reason
    | text | binary => exact h.sendData _ _
    | ping | pong => exact h.write _

theorem hears (h : d.Honest) (hHears : d.Hears fs r d') : d'.Honest := by
  induction hHears with
  | silence | broken => exact h
  | malformed => exact h.abandon _
  | message hOpen hHandle => exact h.handling (handling_of_handle hHandle)
  | failure hOpen hHandle => exact (h.handling (handling_of_handle hHandle)).abandon _
  | next hOpen hHandle hRest ih => exact ih (h.handling (handling_of_handle hHandle))

end Honest

variable [Deflate.Codec]

/-- Behind its last answer a dialog takes nothing more from the peer. -/
theorem Hears.closeReceived (h : d.Hears fs r d') (hLast : WebSocket.IsLast r) : d'.closeReceived = true := by
  induction h with
  | silence => cases hLast
  | broken hOpen e =>
    cases hLast with
    | blame _ code hBlames => cases hBlames
  | malformed | failure => rfl
  | @message d d' f m hOpen hHandle =>
    cases hLast with
    | close reason =>
      cases handling_of_handle hHandle with
      | close | closed => rfl
      | data _ _ hKind => exact absurd rfl (hKind reason)
  | next hOpen hHandle hRest ih => exact ih hLast

/-- A failure that the peer is to blame for is the last thing that is written about. -/
theorem Hears.written_of_blames {e : WebSocketError} {code : UInt16} (h : d.Hears fs (.error e) d')
    (hBlames : e.Blames code) (hWrites : d.writeFailure = none) (hSent : d.closeSent = false) :
    d'.written = d.written ++ pongs fs ++ [.close code ""] := by
  have hCode : e.closeCode? = some code := WebSocketError.closeCode?_eq_some_iff.mpr hBlames
  simp [h.written, answers, farewell, hWrites, hSent, hCode]

end Dialog

namespace WebSocket

variable [Deflate.Codec] {ws : WebSocket}

/-! ## Any number of calls -/

theorem honest_perform (h : ws.dialog.Honest) {call : Call} (hWrites : ∀ failure, call ≠ .failWrites (some failure)) :
    (ws.perform call).dialog.Honest := by
  cases call with
  | recv =>
    obtain ⟨heard, hHears, -⟩ := recv_hears ws
    exact h.hears hHears
  | send m => exact h.send m
  | close reason => exact h.sendClose reason
  | failWrites failure =>
    cases failure with
    | none => exact ⟨rfl, h.written⟩
    | some failure => exact absurd rfl (hWrites failure)

theorem honest_run (h : ws.dialog.Honest) {calls : List Call}
    (hWrites : ∀ failure, Call.failWrites (some failure) ∉ calls) : (ws.run calls).dialog.Honest := by
  induction calls using List.reverseRecOn with
  | nil => exact h
  | append_singleton calls call ih =>
    rw [run_concat]
    refine honest_perform (ih fun failure hMem => hWrites failure (by simp [hMem])) fun failure hCall => ?_
    exact hWrites failure (by simp [hCall])

/-- Once the peer has closed or is given up, nothing is read and nothing is written. -/
theorem recv_of_closeReceived (h : ws.dialog.closeReceived = true) : ws.recv = (.ok none, ws) := by
  rw [recv, if_pos h]

theorem closeReceived_run (h : ws.dialog.closeReceived = true) (calls : List Call) :
    (ws.run calls).dialog.closeReceived = true := by
  induction calls using List.reverseRecOn with
  | nil => exact h
  | append_singleton calls call ih =>
    obtain ⟨heard, new, hTurn⟩ := turn_perform (ws.run calls) call
    rw [run_concat]
    exact (hTurn.deaf ih).2

/-- **Farewells.**  Whatever arrives on the stream, and whatever the application has done with the WebSocket.  If `recv`
fails, the peer is to blame, writing has worked so far and no close frame was written, then this call writes pongs and
behind them the one close frame, which has the code of the failure and no reason.  After such a failure, and after a
closing message, no later call of `recv` finds, reads or writes anything, whatever is in the buffer or arrives. -/
theorem run_farewell (config : WebSocketConfig) (compressed : Bool) (io : Upgraded) (calls : List Call) :
    let start : WebSocket := { io, dialog := { config, compressed } }
    let ws := start.run calls
    (∀ e code, ws.recv.1 = .error e → e.Blames code → (∀ failure, Call.failWrites (some failure) ∉ calls) →
      (∀ f ∈ ws.dialog.written, f.opcode ≠ .close) →
      ∃ answers, (∀ f ∈ answers, f.opcode = .pong) ∧
        ws.recv.2.dialog.written = ws.dialog.written ++ answers ++ [.close code ""] ∧
        (Frame.close code "").payload = bigEndian 2 code.toNat ∧
        ws.recv.2.dialog.written.countP (·.opcode = .close) = 1) ∧
      (IsLast ws.recv.1 → ∀ later io' buffered,
        let late := { ws.recv.2.run later with io := io', buffered }
        late.recv = (.ok none, late)) := by
  intro start ws
  obtain ⟨heard, hHears, -⟩ := recv_hears ws
  refine ⟨fun e code hError hBlames hWrites hNone => ?farewell, fun hLast later io' buffered => ?deaf⟩
  case farewell =>
    have hHonest : ws.dialog.Honest := honest_run ⟨rfl, by simp [start]⟩ hWrites
    have hSent : ws.dialog.closeSent = false := by
      by_contra hSent
      obtain ⟨f, hf, hClose⟩ := hHonest.written (by simpa using hSent)
      exact hNone f hf hClose
    rw [hError] at hHears
    have hWritten := hHears.written_of_blames hBlames hHonest.writes hSent
    have hPongs : ∀ f ∈ pongs heard, f.opcode = .pong := fun f hf => opcode_of_mem_pongs hf
    refine ⟨pongs heard, hPongs, hWritten, by simp [Frame.close, Utf8.ofText, Utf8.encode], ?_⟩
    have hOthers : (ws.dialog.written ++ pongs heard).countP (·.opcode = .close) = 0 := by
      rw [List.countP_eq_zero]
      intro f hf
      rcases List.mem_append.mp hf with hf | hf
      · simpa using hNone f hf
      · simp [hPongs f hf]
    rw [hWritten, List.countP_append, hOthers]
    rfl
  case deaf =>
    have hClosed : ws.recv.2.dialog.closeReceived = true := hHears.closeReceived hLast
    exact recv_of_closeReceived (closeReceived_run hClosed later)

end WebSocket

section Example

attribute [local instance] Deflate.Codec.stored

namespace WebSocket

/-- A ping, a message that goes on without having begun, and bytes that are no frame: the close frame is the last that
is written, and nothing is received behind it. -/
theorem run_farewell_to_stray_continuation :
    let mask : Mask := ⟨0x37, 0xFA, 0x21, 0x3D⟩
    let ping : Frame := { opcode := .ping, mask := some mask, payload := [0x70] }
    let stray : Frame := { opcode := .continuation, mask := some mask, payload := [0x71] }
    let start : WebSocket := { io := { inbound := { chunks := [ping.encode ++ stray.encode ++ [0xFF, 0xFF]] } } }
    let ws := start.run [.send (.text "hello")]
    let left := ws.recv.2.run [.recv, .send (.text "late")]
    ws.recv.1 = .error (.violation .strayContinuation) ∧
      ws.recv.2.dialog.written.getLast? = some (.close 1002 "") ∧
      ws.recv.2.dialog.written.countP (·.opcode = .close) = 1 ∧
      left.recv = (.ok none, left) := by
  intro mask ping stray start ws left
  have hPing : ping.Permitted ws.decodeOptions := ⟨by decide, by decide, by decide, by decide, by decide⟩
  have hStray : stray.Permitted ws.decodeOptions := ⟨by decide, by decide, by decide, by decide, by decide⟩
  have hBytes : ws.remaining = ping.encode ++ (stray.encode ++ [0xFF, 0xFF]) := by
    simp [ws, run, perform, WebSocket.send, Dialog.send, remaining, Upgraded.remaining, Inbound.remaining, start]
  -- The ping is read first.
  have hFirst := Frame.decode_encode hPing (stray.encode ++ [0xFF, 0xFF])
  rw [← hBytes] at hFirst
  obtain ⟨ws₁, hRead₁, hRest₁, hDialog₁, -⟩ := readFrame_of_decode hFirst
  let answered : Dialog := { written := [{ opcode := .text, payload := Utf8.ofText "hello" }, .pong [0x70]] }
  have hHandle₁ : ws₁.dialog.handle ping = (.ok none, answered) := by
    rw [hDialog₁]
    rfl
  -- The other frame continues nothing.
  let ponged : WebSocket := { ws₁ with dialog := answered }
  have hSecond : Frame.decode ponged.decodeOptions ponged.remaining = .ok (some (stray, [0xFF, 0xFF])) := by
    have hBytes' : ponged.remaining = stray.encode ++ [0xFF, 0xFF] := hRest₁
    rw [hBytes']
    exact Frame.decode_encode hStray [0xFF, 0xFF]
  obtain ⟨ws₂, hRead₂, -, hDialog₂, -⟩ := readFrame_of_decode hSecond
  have hHandle₂ : ws₂.dialog.handle stray = (.error (.violation .strayContinuation), answered) := by
    rw [hDialog₂]
    rfl
  have hError : ws.recv.1 = .error (.violation .strayContinuation) := by
    rw [recv_of_frame rfl hRead₁ hHandle₁, recv_of_failure rfl hRead₂ hHandle₂]
  obtain ⟨hFarewell, hDeaf⟩ := run_farewell {} false start.io [.send (.text "hello")]
  obtain ⟨answers, -, hWritten, -, hOne⟩ := hFarewell _ 1002 hError (.violation _) (by simp) (by decide)
  have hLast : IsLast ws.recv.1 := hError ▸ .blame _ 1002 (.violation _)
  refine ⟨hError, ?_, hOne, hDeaf hLast [.recv, .send (.text "late")] left.io left.buffered⟩
  rw [hWritten]
  simp

end WebSocket

end Example
end HttpServer
