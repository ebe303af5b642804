import HttpServer.Proofs.ByteReader
import HttpServer.Proofs.FrameCodec
import HttpServer.WebSocket.Echo

/-!
# Frames off a stream

A WebSocket takes frames off its stream as the bytes arrive, and hands them to its dialog until there is a message.
Neither loop can be seen from outside.  If there is a frame at the front of the bytes, read or not, that frame is what
comes next (`WebSocket.readFrame_of_decode`); and receiving messages until there are no more does to the dialog what
handling the frames one after the other does (`WebSocket.recvAll_of_frames`).
-/

namespace HttpServer

/-- What a read of at least one byte does: it brings something, or there is nothing left. -/
theorem Upgraded.read_cases {n : Nat} (hn : 0 < n) (u : Upgraded) :
    (∃ b bytes u', u.read n = .ok (b :: bytes, u') ∧ u'.inbound.ending = u.inbound.ending ∧
        u'.outbound = u.outbound) ∨
      (u.remaining = [] ∧ u.inbound.ending = .closed ∧ ∃ u', u.read n = .ok ([], u') ∧ u'.outbound = u.outbound) ∨
      ∃ e, u.remaining = [] ∧ u.inbound.ending = .failed e ∧ u.read n = .error e := by
  by_cases hBuffered : u.buffered = []
  · have hEmptyBuffer : u.buffered.isEmpty = true := by simp [hBuffered]
    rcases Inbound.read_cases hn u.inbound with
      ⟨b, bytes, s', hRead, hEnding⟩ | ⟨hEmpty, hEnding, hRead⟩ | ⟨e, hEmpty, hEnding, hRead⟩
    · exact .inl ⟨b, bytes, { u with inbound := s' }, by simp [read, hEmptyBuffer, hRead, Except.map], hEnding, rfl⟩
    · exact .inr (.inl ⟨by simp [remaining, hBuffered, hEmpty], hEnding,
        { u with inbound := { u.inbound with chunks := [] } }, by simp [read, hEmptyBuffer, hRead, Except.map], rfl⟩)
    · exact .inr (.inr ⟨e, by simp [remaining, hBuffered, hEmpty], hEnding,
        by simp [read, hEmptyBuffer, hRead, Except.map]⟩)
  · obtain ⟨b, bs, hSome⟩ := List.exists_cons_of_ne_nil hBuffered
    obtain ⟨k, rfl⟩ : ∃ k, n = k + 1 := ⟨n - 1, by omega⟩
    exact .inl ⟨b, bs.take k, { u with buffered := u.buffered.drop (k + 1) }, by simp [read, hSome], rfl, rfl⟩

namespace WebSocket

theorem readSize_pos : 0 < readSize := by
  decide

/-! ## One frame -/

/-- The frame at the front of the bytes is the one that is read, whether its bytes have arrived yet or not. -/
theorem readFrame_of_decode {ws : WebSocket} {f : Frame} {rest : Bytes}
    (h : Frame.decode ws.decodeOptions ws.remaining = .ok (some (f, rest))) :
    ∃ ws', ws.readFrame = (.ok (some f), ws') ∧ ws'.remaining = rest ∧ ws'.dialog = ws.dialog ∧
      ws'.io.inbound.ending = ws.io.inbound.ending ∧ ws'.io.outbound = ws.io.outbound := by
  fun_induction readFrame ws with
  | case1 ws e buffered hTake =>
    obtain ⟨hDecode, -⟩ := Frame.takeFront_eq_error_iff.mp hTake
    -- An error would be there in all of the bytes too.
    have hSettled : Frame.decode ws.decodeOptions ws.buffered ≠ .ok none := by simp [hDecode]
    have hAll := Frame.decode_append hSettled ws.io.remaining
    rw [← remaining, h, hDecode] at hAll
    simp at hAll
  | case2 ws g left hTake =>
    have hDecode := Frame.takeFront_eq_frame_iff.mp hTake
    have hSettled : Frame.decode ws.decodeOptions ws.buffered ≠ .ok none := by simp [hDecode]
    have hAll := Frame.decode_append hSettled ws.io.remaining
    rw [← remaining, h, hDecode] at hAll
    simp only [withMore_some, Except.ok.injEq, Option.some.injEq, Prod.mk.injEq] at hAll
    obtain ⟨rfl, rfl⟩ := hAll
    exact ⟨_, rfl, rfl, rfl, rfl, rfl⟩
  | case3 ws buffered hTake e hRead =>
    obtain ⟨hDecode, rfl⟩ := Frame.takeFront_eq_none_iff.mp hTake
    rcases Upgraded.read_cases readSize_pos ws.io with ⟨_, _, _, hRead', -⟩ | ⟨-, -, _, hRead', -⟩ | ⟨_, hEmpty, -⟩
    · simp [hRead] at hRead'
    · simp [hRead] at hRead'
    · simp [remaining, hEmpty, hDecode] at h
  | case4 ws buffered hTake io hRead =>
    obtain ⟨hDecode, rfl⟩ := Frame.takeFront_eq_none_iff.mp hTake
    rcases Upgraded.read_cases readSize_pos ws.io with ⟨_, _, _, hRead', -⟩ | ⟨hEmpty, -⟩ | ⟨_, hEmpty, -⟩
    · simp [hRead] at hRead'
    · simp [remaining, hEmpty, hDecode] at h
    · simp [remaining, hEmpty, hDecode] at h
  | case5 ws buffered hTake b bs io hRead ih =>
    obtain ⟨-, rfl⟩ := Frame.takeFront_eq_none_iff.mp hTake
    have hSame : { ws with io, buffered := ws.buffered ++ b :: bs }.remaining = ws.remaining := by
      simp [remaining, Upgraded.remaining_of_read hRead]
    obtain ⟨ws', hFrame, hRest, hDialog, hEnding, hOutbound⟩ := ih (by rw [hSame]; exact h)
    rcases Upgraded.read_cases readSize_pos ws.io with
      ⟨_, _, _, hRead', hEnding', hOutbound'⟩ | ⟨-, -, _, hRead', -⟩ | ⟨_, -, -, hRead'⟩
    · rw [hRead] at hRead'
      simp only [Except.ok.injEq, Prod.mk.injEq] at hRead'
      obtain ⟨-, rfl⟩ := hRead'
      exact ⟨ws', hFrame, hRest, hDialog, hEnding.trans hEnding', hOutbound.trans hOutbound'⟩
    · simp [hRead] at hRead'
    · simp [hRead] at hRead'

theorem readFrame_of_end {ws : WebSocket} (hEmpty : ws.remaining = []) (hEnding : ws.io.inbound.ending = .closed) :
    ∃ ws', ws.readFrame = (.ok none, ws') ∧ ws'.dialog = ws.dialog ∧ ws'.io.outbound = ws.io.outbound := by
  simp only [remaining, List.append_eq_nil_iff] at hEmpty
  have hTake : Frame.takeFront ws.decodeOptions ws.buffered = (.ok none, ws.buffered) := by
    rw [hEmpty.1]
    rfl
  rcases Upgraded.read_cases readSize_pos ws.io with
    ⟨b, bytes, io, hRead, -⟩ | ⟨-, -, io, hRead, hOutbound⟩ | ⟨_, -, hFailed, -⟩
  · have hSome := Upgraded.remaining_of_read hRead
    simp [hEmpty.2] at hSome
  · refine ⟨{ ws with io }, ?_, rfl, hOutbound⟩
    rw [readFrame]
    simp only [hTake]
    split <;> simp_all
  · simp [hEnding] at hFailed

variable [Deflate.Codec]

/-! ## One message -/

section Recv

variable {ws ws₁ : WebSocket} {f : Frame} {m : Message} {d : Dialog}

theorem recv_of_end (hOpen : ws.dialog.closeReceived = false) (hRead : ws.readFrame = (.ok none, ws₁)) :
    ws.recv = (.ok none, ws₁) := by
  rw [recv, if_neg (by simp [hOpen])]
  split <;> simp_all

theorem recv_of_message (hOpen : ws.dialog.closeReceived = false) (hRead : ws.readFrame = (.ok (some f), ws₁))
    (hHandle : ws₁.dialog.handle f = (.ok (some m), d)) : ws.recv = (.ok (some m), { ws₁ with dialog := d }) := by
  rw [recv, if_neg (by simp [hOpen])]
  split <;> simp_all

theorem recv_of_frame (hOpen : ws.dialog.closeReceived = false) (hRead : ws.readFrame = (.ok (some f), ws₁))
    (hHandle : ws₁.dialog.handle f = (.ok none, d)) : ws.recv = recv { ws₁ with dialog := d } := by
  rw [recv, if_neg (by simp [hOpen])]
  split <;> simp_all

theorem recv_of_failure {e : WebSocketError} (hOpen : ws.dialog.closeReceived = false)
    (hRead : ws.readFrame = (.ok (some f), ws₁)) (hHandle : ws₁.dialog.handle f = (.error e, d)) :
    ws.recv = (.error e, { ws₁ with dialog := d.abandon e }) := by
  rw [recv, if_neg (by simp [hOpen])]
  split <;> simp_all

end Recv

/-! ## All messages -/

/-- Receive messages until there are no more: all of them, the failure that ended it if there was one, and the WebSocket
that is left. -/
def recvAll (ws : WebSocket) : List Message × Except WebSocketError Unit × WebSocket :=
  match _ : ws.recv with
  | (.error e, ws') => ([], .error e, ws')
  | (.ok none, ws') => ([], .ok (), ws')
  | (.ok (some m), ws') => (m :: (recvAll ws').1, (recvAll ws').2)
termination_by ws.remaining.length
decreasing_by all_goals exact length_of_recv (by assumption)

theorem recvAll_of_end {ws ws' : WebSocket} (h : ws.recv = (.ok none, ws')) : ws.recvAll = ([], .ok (), ws') := by
  rw [recvAll]
  split <;> simp_all

theorem recvAll_of_message {ws ws' : WebSocket} {m : Message} (h : ws.recv = (.ok (some m), ws')) :
    ws.recvAll = (m :: ws'.recvAll.1, ws'.recvAll.2) := by
  rw [recvAll]
  split <;> simp_all

theorem recvAll_congr {ws ws' : WebSocket} (h : ws.recv = ws'.recv) : ws.recvAll = ws'.recvAll := by
  rw [recvAll, recvAll]
  split <;> split <;> simp_all

end WebSocket

/-! ## All frames -/

namespace Dialog

variable [Deflate.Codec] {d d' : Dialog} {f : Frame} {m : Option Message}

/-- Handle frames one after the other: the messages that they complete and the dialog that is left, or the first
failure. -/
def handleAll (d : Dialog) : List Frame → Except WebSocketError (List Message × Dialog)
  | [] => .ok ([], d)
  | f :: fs =>
    match d.handle f with
    | (.error e, _) => .error e
    | (.ok m, d) => (d.handleAll fs).map fun (ms, d) => (m.toList ++ ms, d)

theorem handleAll_cons {fs : List Frame} (h : d.handle f = (.ok m, d')) :
    d.handleAll (f :: fs) = (d'.handleAll fs).map fun (ms, d) => (m.toList ++ ms, d) := by
  simp only [handleAll, h]

theorem handleAll_cons_eq_ok_iff {fs : List Frame} {ms : List Message} :
    d.handleAll (f :: fs) = .ok (ms, d') ↔
      ∃ m d₁ rest, d.handle f = (.ok m, d₁) ∧ d₁.handleAll fs = .ok (rest, d') ∧ ms = m.toList ++ rest := by
  constructor
  · intro h
    rcases hHandle : d.handle f with ⟨e | m, d₁⟩
    · simp [handleAll, hHandle] at h
    · rw [handleAll_cons hHandle] at h
      cases hRest : d₁.handleAll fs with
      | error e => simp [hRest, Except.map] at h
      | ok r =>
        obtain ⟨rest, d₂⟩ := r
        simp only [hRest, Except.map, Except.ok.injEq, Prod.mk.injEq] at h
        obtain ⟨rfl, rfl⟩ := h
        exact ⟨m, d₁, rest, rfl, hRest, rfl⟩
  · rintro ⟨m, d₁, rest, hHandle, hRest, rfl⟩
    rw [handleAll_cons hHandle, hRest]
    rfl

theorem handleAll_append {fs gs : List Frame} {ms ns : List Message} {d'' : Dialog}
    (h : d.handleAll fs = .ok (ms, d')) (h' : d'.handleAll gs = .ok (ns, d'')) :
    d.handleAll (fs ++ gs) = .ok (ms ++ ns, d'') := by
  induction fs generalizing d ms with
  | nil =>
    simp only [handleAll, Except.ok.injEq, Prod.mk.injEq] at h
    obtain ⟨rfl, rfl⟩ := h
    exact h'
  | cons f fs ih =>
    obtain ⟨m, d₁, rest, hHandle, hRest, rfl⟩ := handleAll_cons_eq_ok_iff.mp h
    rw [List.cons_append, handleAll_cons hHandle, ih hRest]
    simp [Except.map]

/-- Nothing has changed but the message under way and what was written. -/
structure Kept (d d' : Dialog) : Prop where
  config : d'.config = d.config
  compressed : d'.compressed = d.compressed
  closeReceived : d'.closeReceived = d.closeReceived
  writeFailure : d'.writeFailure = d.writeFailure

theorem kept_of_assemble {fin : Bool} {a : Assembly} (h : d.assemble fin a = (.ok m, d')) : d.Kept d' := by
  unfold assemble at h
  split at h
  · simp at h
  · split at h
    · simp only [Prod.mk.injEq] at h
      rw [← h.2]
      exact ⟨rfl, rfl, rfl, rfl⟩
    · cases h
      exact ⟨rfl, rfl, rfl, rfl⟩

theorem kept_of_begin {kind : DataKind} (h : d.begin kind f = (.ok m, d')) : d.Kept d' := by
  unfold begin at h
  split at h
  · simp at h
  · exact kept_of_assemble h

/-- Only a closing frame has an effect beyond its message and its answer. -/
theorem kept_of_handle (h : d.handle f = (.ok m, d')) (hClose : f.opcode ≠ .close) : d.Kept d' := by
  unfold handle at h
  cases hOpcode : f.opcode with
  | ping =>
    simp only [hOpcode, write] at h
    cases hFailure : d.writeFailure with
    | some e => simp [hFailure] at h
    | none =>
      simp only [hFailure] at h
      cases h
      exact ⟨rfl, rfl, rfl, hFailure.symm⟩
  | pong =>
    simp only [hOpcode] at h
    cases h
    exact ⟨rfl, rfl, rfl, rfl⟩
  | close => exact absurd hOpcode hClose
  | text =>
    simp only [hOpcode] at h
    exact kept_of_begin h
  | binary =>
    simp only [hOpcode] at h
    exact kept_of_begin h
  | continuation =>
    simp only [hOpcode, extend] at h
    split at h
    · simp at h
    · obtain ⟨hConfig, hCompressed, hReceived, hFailure⟩ := kept_of_assemble h
      exact ⟨hConfig, hCompressed, hReceived, hFailure⟩

end Dialog

namespace WebSocket

variable [Deflate.Codec]

/-- Receiving all messages of a stream of frames is handling the frames one after the other.  The induction is on the
frames; each leaves the WebSocket in front of the next one, with what it needs to read it unchanged. -/
theorem recvAll_of_frames {fs : List Frame} {ws : WebSocket} {ms : List Message} {d : Dialog}
    (hOpen : ws.dialog.closeReceived = false) (hEnding : ws.io.inbound.ending = .closed)
    (hFrames : ∀ f ∈ fs, f.Permitted ws.decodeOptions ∧ f.opcode ≠ .close)
    (hBytes : ws.remaining = fs.flatMap Frame.encode) (hHandle : ws.dialog.handleAll fs = .ok (ms, d)) :
    ∃ ws', ws.recvAll = (ms, .ok (), ws') ∧ ws'.dialog = d ∧ ws'.io.outbound = ws.io.outbound := by
  induction fs generalizing ws ms with
  | nil =>
    simp only [Dialog.handleAll, Except.ok.injEq, Prod.mk.injEq] at hHandle
    obtain ⟨rfl, rfl⟩ := hHandle
    obtain ⟨ws', hRead, hDialog, hOutbound⟩ := readFrame_of_end hBytes hEnding
    exact ⟨ws', recvAll_of_end (recv_of_end hOpen hRead), hDialog, hOutbound⟩
  | cons f fs ih =>
    obtain ⟨hPermitted, hClose⟩ := hFrames f (by simp)
    obtain ⟨m, d₁, rest, hFirst, hRest, rfl⟩ := Dialog.handleAll_cons_eq_ok_iff.mp hHandle
    obtain ⟨ws₁, hRead, hLeft, hDialog, hEnding₁, hOutbound₁⟩ := readFrame_of_decode
      (by rw [hBytes, List.flatMap_cons]; exact Frame.decode_encode hPermitted _)
    have hKept := Dialog.kept_of_handle hFirst hClose
    have hOpen₁ : { ws₁ with dialog := d₁ }.dialog.closeReceived = false := hKept.closeReceived.trans hOpen
    have hOptions : { ws₁ with dialog := d₁ }.decodeOptions = ws.decodeOptions := by
      simp only [decodeOptions, hKept.config, hKept.compressed]
    have hFrames₁ : ∀ g ∈ fs, g.Permitted { ws₁ with dialog := d₁ }.decodeOptions ∧ g.opcode ≠ .close := by
      rw [hOptions]
      exact fun g hg => hFrames g (by simp [hg])
    obtain ⟨ws', hAll, hDialog', hOutbound⟩ := ih hOpen₁ (hEnding₁.trans hEnding) hFrames₁ hLeft hRest
    refine ⟨ws', ?_, hDialog', hOutbound.trans hOutbound₁⟩
    rw [← hDialog] at hFirst
    cases m with
    | none => rw [recvAll_congr (recv_of_frame hOpen hRead hFirst), hAll]; rfl
    | some m => rw [recvAll_of_message (recv_of_message hOpen hRead hFirst), hAll]; rfl

end WebSocket
end HttpServer
