import HttpServer.Deflate.Stored
import HttpServer.Proofs.Receiving
import HttpServer.Proofs.Utf8Pieces

/-!
# What a peer makes of the answers

A WebSocket that receives answers on its own: pongs, the echo of a close frame, and the close frame that goes with a
failure.  They are whole control frames without a mask.  A peer accepts all of them, unless the echo of its own close
frame has grown too long, which happens to reasons that are not UTF-8: the echo has three bytes for each malformed run
(`WebSocket.recv_answers_accepted_iff`).
-/

namespace HttpServer

/-- The answer to a close frame. -/
def Frame.echo (f : Frame) : Frame :=
  CloseReason.frame (CloseReason.parse? f.payload)

/-- A whole control frame without a mask. -/
structure Frame.IsAnswer (f : Frame) : Prop where
  mask : f.mask = none
  fin : f.fin = true
  rsv1 : f.rsv1 = false
  control : f.opcode.isControl = true

namespace Frame

variable {f : Frame} {o : DecodeOptions}

theorem isAnswer_pong (payload : Bytes) : (pong payload).IsAnswer :=
  ⟨rfl, rfl, rfl, rfl⟩

theorem isAnswer_close (code : UInt16) (reason : String) : (close code reason).IsAnswer :=
  ⟨rfl, rfl, rfl, rfl⟩

/-- The close frame of a failure is the code alone. -/
theorem length_close_empty (code : UInt16) : (close code "").payload.length = 2 := by
  simp [close, Utf8.ofText, Utf8.encode]

theorem isAnswer_closeFrame (reason : Option CloseReason) : (CloseReason.frame reason).IsAnswer := by
  cases reason <;> exact ⟨rfl, rfl, rfl, rfl⟩

/-- A peer permits an answer that is not too long. -/
theorem IsAnswer.permitted_iff (h : f.IsAnswer) (hMask : o.requireMask = false) (hSize : 125 ≤ o.maxFrameSize) :
    f.Permitted o ↔ f.payload.length ≤ 125 := by
  constructor
  · intro hPermitted
    exact (hPermitted.control h.control).2
  · intro hShort
    have hWidth : 125 < UInt64.size / 2 := by decide
    refine ⟨by omega, by omega, fun _ => ⟨h.fin, hShort⟩, ?_, ?_⟩
    · intro hRsv
      simp [h.rsv1] at hRsv
    · intro hRequire
      simp [hMask] at hRequire

/-- An echo has the two bytes of the code, and the reason as it was read. -/
theorem length_echo (f : Frame) :
    f.echo.payload.length =
      if f.payload.length < 2 then 0 else 2 + (Utf8.encode (Utf8.decodeLossy (f.payload.drop 2))).length := by
  unfold echo
  match f.payload with
  | [] => rfl
  | [_] => rfl
  | a :: b :: reason => simp [CloseReason.parse?, CloseReason.frame, close]

/-- A reason that is UTF-8 comes back as it was. -/
theorem length_echo_of_toText? (h : (Utf8.toText? (f.payload.drop 2)).isSome) :
    f.echo.payload.length ≤ f.payload.length := by
  obtain ⟨content, hContent⟩ := Option.isSome_iff_exists.mp h
  rw [length_echo, Utf8.encode_decodeLossy_of_toText? hContent, List.length_drop]
  split <;> omega

theorem length_echo_le (h : f.payload.length ≤ 125) : f.echo.payload.length ≤ 371 := by
  have hReason := Utf8.length_encode_decodeLossy_le (f.payload.drop 2)
  rw [List.length_drop] at hReason
  rw [length_echo]
  split <;> omega

end Frame

namespace Dialog

variable {d d' : Dialog} {f g : Frame} {fs : List Frame} {r : Except WebSocketError (Option Message)}

/-- Whether a close frame of the peer is answered with its echo. -/
structure Echoes (d : Dialog) (f : Frame) : Prop where
  opcode : f.opcode = .close
  unsent : d.closeSent = false
  writes : d.writeFailure = none

variable [Deflate.Codec]

/-- A close frame that was heard is the message with which the call ends. -/
theorem Hears.eq_close (h : d.Hears fs r d') (hg : g ∈ fs) (hEchoes : d.Echoes g) :
    r = .ok (some (.close (CloseReason.parse? g.payload))) := by
  obtain ⟨hClose, hSent, hWrites⟩ := hEchoes
  induction h with
  | silence | broken | malformed => simp at hg
  | message hOpen hHandle =>
    obtain rfl := List.mem_singleton.mp hg
    cases handling_of_handle hHandle with
    | close | closed => rfl
    | data _ hData => simp [hClose, Opcode.isControl] at hData
  | failure hOpen hHandle =>
    obtain rfl := List.mem_singleton.mp hg
    cases handling_of_handle hHandle with
    | deafPing _ hFails | deafClose _ _ hFails => simp [hWrites] at hFails
    | data _ hData => simp [hClose, Opcode.isControl] at hData
  | next hOpen hHandle hRest ih =>
    have hFirst := (handling_of_handle hHandle).opcode_ne_close
    rcases List.mem_cons.mp hg with rfl | hg
    · exact absurd hClose hFirst
    · cases handling_of_handle hHandle with
      | ping | pong | data => exact ih hg hSent hWrites

theorem Hears.echo_mem_answers (h : d.Hears fs r d') (hg : g ∈ fs) (hEchoes : d.Echoes g) :
    g.echo ∈ d.answers fs r := by
  rw [h.eq_close hg hEchoes]
  simp [answers, farewell, hEchoes.unsent, hEchoes.writes, Frame.echo]

/-- The answers of a call, one by one. -/
theorem Hears.mem_answers (h : d.Hears fs r d') (hf : f ∈ d.answers fs r) :
    (∃ g ∈ fs, g.opcode = .ping ∧ f = .pong g.payload) ∨ (∃ g ∈ fs, d.Echoes g ∧ f = g.echo) ∨
      ∃ code, f = .close code "" := by
  unfold answers at hf
  cases hWrites : d.writeFailure with
  | some e => simp [hWrites] at hf
  | none =>
    simp only [hWrites, Option.isSome_none, Bool.false_eq_true, if_false, List.mem_append] at hf
    rcases hf with hf | hf
    · obtain ⟨g, hg, rfl⟩ := List.mem_map.mp hf
      obtain ⟨hHeard, hPing⟩ := List.mem_filter.mp hg
      exact .inl ⟨g, hHeard, by simpa using hPing, rfl⟩
    cases hSent : d.closeSent with
    | true => simp [hSent] at hf
    | false =>
      simp only [hSent, Bool.false_eq_true, if_false] at hf
      unfold farewell at hf
      split at hf
      · rename_i reason
        obtain ⟨g, hg, hClose, rfl⟩ := h.exists_close
        exact .inr (.inl ⟨g, hg, ⟨hClose, hSent, hWrites⟩, List.mem_singleton.mp hf⟩)
      · simp at hf
      · simp only [Option.mem_toList, Option.map_eq_some_iff] at hf
        obtain ⟨code, -, rfl⟩ := hf
        exact .inr (.inr ⟨code, rfl⟩)

end Dialog

namespace WebSocket

/-- **What a peer makes of the answers.**  Whatever bytes a peer sends, everything that a call of `recv` writes on its
own is whole control frames without a mask.  A peer that takes frames without a mask reads all of them, exactly unless
its own close frame was echoed and the echo has more than 125 bytes.  That happens only to reasons that are not UTF-8,
and no echo has more than 371 bytes. -/
theorem recv_answers_accepted_iff [Deflate.Codec] (ws : WebSocket) :
    ∃ heard answers, Frame.Reads ws.decodeOptions ws.remaining heard ws.recv.2.remaining ∧
      ws.recv.2.dialog.written = ws.dialog.written ++ answers ∧
      (∀ f ∈ answers, f.IsAnswer ∧ f.payload.length ≤ 371) ∧
      (∀ o : DecodeOptions, o.requireMask = false → 125 ≤ o.maxFrameSize →
        (Frame.decodeAll o (answers.flatMap Frame.encode) = (answers, none, []) ↔
          ∀ f ∈ heard, ws.dialog.Echoes f → f.echo.payload.length ≤ 125)) ∧
      ∀ f ∈ heard, f.opcode = .close → (Utf8.toText? (f.payload.drop 2)).isSome → f.echo.payload.length ≤ 125 := by
  obtain ⟨heard, hHears, hReads⟩ := recv_hears ws
  -- A control frame that was read is short, and so is the pong that has its payload.
  have hShort : ∀ f ∈ heard, f.opcode.isControl = true → f.payload.length ≤ 125 :=
    fun f hf hControl => ((hReads.permitted f hf).control hControl).2
  have hPing : ∀ g ∈ heard, g.opcode = .ping → (Frame.pong g.payload).payload.length ≤ 125 :=
    fun g hg hOpcode => hShort g hg (by rw [hOpcode]; rfl)
  have hClose : ∀ g ∈ heard, g.opcode = .close → g.payload.length ≤ 125 :=
    fun g hg hOpcode => hShort g hg (by rw [hOpcode]; rfl)
  have hAnswer : ∀ f ∈ ws.dialog.answers heard ws.recv.1, f.IsAnswer := by
    intro f hf
    rcases hHears.mem_answers hf with ⟨g, -, -, rfl⟩ | ⟨g, -, -, rfl⟩ | ⟨code, rfl⟩
    · exact Frame.isAnswer_pong _
    · exact Frame.isAnswer_closeFrame _
    · exact Frame.isAnswer_close _ _
  refine ⟨heard, ws.dialog.answers heard ws.recv.1, hReads, hHears.written, ?_, ?_, ?_⟩
  · intro f hf
    refine ⟨hAnswer f hf, ?_⟩
    rcases hHears.mem_answers hf with ⟨g, hg, hOpcode, rfl⟩ | ⟨g, hg, hEchoes, rfl⟩ | ⟨code, rfl⟩
    · exact Nat.le_trans (hPing g hg hOpcode) (by decide)
    · exact Frame.length_echo_le (hClose g hg hEchoes.opcode)
    · simp [Frame.length_close_empty]
  · intro o hMask hSize
    rw [Frame.decodeAll_encode_iff]
    constructor
    · intro hPermitted g hg hEchoes
      have hEcho := hHears.echo_mem_answers hg hEchoes
      exact ((hAnswer _ hEcho).permitted_iff hMask hSize).mp (hPermitted _ hEcho)
    · intro hFits f hf
      refine ((hAnswer f hf).permitted_iff hMask hSize).mpr ?_
      rcases hHears.mem_answers hf with ⟨g, hg, hOpcode, rfl⟩ | ⟨g, hg, hEchoes, rfl⟩ | ⟨code, rfl⟩
      · exact hPing g hg hOpcode
      · exact hFits g hg hEchoes
      · simp [Frame.length_close_empty]
  · intro f hf hOpcode hText
    exact Nat.le_trans (Frame.length_echo_of_toText? hText) (hClose f hf hOpcode)

/-- A close frame with a reason of 42 bytes, none of which begins a scalar. -/
def garbledClose : Frame :=
  { opcode := .close, mask := some ⟨0x37, 0xFA, 0x21, 0x3D⟩, payload := 3 :: 0xE8 :: List.replicate 42 0xFF }

section Example

attribute [local instance] Deflate.Codec.stored

/-- The echo of this frame has 128 bytes, and the peer refuses it. -/
theorem recv_garbled_close :
    let io : Upgraded := { inbound := { chunks := [garbledClose.encode] } }
    (fresh {} io).recv.2.dialog.written = [garbledClose.echo] ∧ garbledClose.echo.payload.length = 128 ∧
      Frame.decodeAll { requireMask := false } garbledClose.echo.encode =
        ([], some .controlTooLong, garbledClose.echo.encode) := by
  intro io
  have hPermitted : garbledClose.Permitted (fresh {} io).decodeOptions :=
    ⟨by decide, by decide, by decide, by decide, by decide⟩
  have hBytes : (fresh {} io).remaining = garbledClose.encode ++ [] := by
    simp [remaining, Upgraded.remaining, Inbound.remaining, fresh, io]
  have hDecode := Frame.decode_encode hPermitted []
  rw [← hBytes] at hDecode
  obtain ⟨ws, hRead, -, hDialog, -⟩ := readFrame_of_decode hDecode
  have hHandle : ws.dialog.handle garbledClose =
      (.ok (some (.close (CloseReason.parse? garbledClose.payload))),
        { closeSent := true, closeReceived := true, written := [garbledClose.echo] }) := by
    rw [hDialog]
    rfl
  have hLength : garbledClose.echo.payload.length = 128 := by decide +kernel
  have hRefused : Frame.decode { requireMask := false } garbledClose.echo.encode = .error .controlTooLong := by
    rw [Frame.encode_eq, hLength]
    rfl
  refine ⟨?_, hLength, Frame.decodeAll_of_error hRefused⟩
  rw [recv_of_message rfl hRead hHandle]

end Example

end WebSocket
end HttpServer
