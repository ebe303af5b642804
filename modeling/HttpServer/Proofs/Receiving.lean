import HttpServer.Proofs.FrameReader
import HttpServer.Proofs.FrameStream
import HttpServer.Proofs.Reassembly

/-!
# What receiving does

A call that receives a message takes frames off the stream until one of them completes a message or something goes
wrong.  `Dialog.Handling` says what a single frame can do to the dialog, `Dialog.Hears` what such a call can do; and
`WebSocket.recv_hears` that every call does this, with frames that were at the front of the bytes.

What is written in the meantime follows from the relation: a pong for each ping, and at the end a close frame, if there
is a reason for one and none was sent before (`Dialog.Hears.written`).
-/

namespace HttpServer

/-! ## Pongs -/

section Pongs

variable {f : Frame} {fs gs : List Frame}

@[simp]
theorem pongs_nil : pongs [] = [] :=
  rfl

theorem pongs_append : pongs (fs ++ gs) = pongs fs ++ pongs gs := by
  simp [pongs]

theorem pongs_cons_of_data (hData : f.opcode.isControl = false) : pongs (f :: fs) = pongs fs := by
  have hPing : f.opcode ≠ .ping := fun hOpcode => by simp [hOpcode, Opcode.isControl] at hData
  simp [pongs, hPing]

theorem opcode_of_mem_pongs (h : f ∈ pongs fs) : f.opcode = .pong := by
  obtain ⟨ping, -, rfl⟩ := List.mem_map.mp h
  rfl

end Pongs

namespace Dialog

variable {d d' d₁ : Dialog} {f : Frame} {fs : List Frame} {r : Except WebSocketError (Option Message)}

/-! ## Answers -/

/-- The close frame at the end of a call. -/
def farewell : Except WebSocketError (Option Message) → List Frame
  | .ok (some (.close reason)) => [CloseReason.frame reason]
  | .ok _ => []
  | .error e => (e.closeCode?.map (Frame.close · "")).toList

/-- What is written during a call that has heard some frames and ended in some way. -/
def answers (heard : List Frame) (r : Except WebSocketError (Option Message)) (d : Dialog) : List Frame :=
  if d.writeFailure.isSome then [] else pongs heard ++ if d.closeSent then [] else farewell r

theorem settings_abandon (e : WebSocketError) (d : Dialog) :
    (d.abandon e).config = d.config ∧ (d.abandon e).compressed = d.compressed := by
  unfold abandon sendClose write
  cases e.closeCode? <;> cases d.closeSent <;> cases d.writeFailure <;> exact ⟨rfl, rfl⟩

theorem closeSent_abandon {e : WebSocketError} (h : d.closeSent = true ∨ farewell (.error e) ≠ []) :
    (d.abandon e).closeSent = true := by
  unfold abandon sendClose write
  cases hCode : e.closeCode? with
  | none => simpa [farewell, hCode] using h
  | some code => cases hSent : d.closeSent <;> cases d.writeFailure <;> simp [hSent]

theorem written_abandon (e : WebSocketError) (d : Dialog) :
    (d.abandon e).written = d.written ++ d.answers [] (.error e) := by
  unfold abandon answers farewell sendClose write
  cases hCode : e.closeCode? <;> cases d.closeSent <;> cases d.writeFailure <;> simp [pongs, hCode, CloseReason.frame]

theorem farewell_of_ne {m : Option Message}
    (h : ∀ reason, (.ok m : Except WebSocketError (Option Message)) ≠ .ok (some (.close reason))) :
    farewell (.ok m) = [] := by
  unfold farewell
  split
  · rename_i reason hClose
    exact absurd hClose (h reason)
  · rfl
  · contradiction

/-! ## One frame -/

/-- What handling a frame can do. -/
inductive Handling (d : Dialog) (f : Frame) : Except WebSocketError (Option Message) → Dialog → Prop
  | ping (hOpcode : f.opcode = .ping) (hWrites : d.writeFailure = none) :
    Handling d f (.ok none) { d with written := d.written ++ [.pong f.payload] }
  | deafPing {e : TransportError} (hOpcode : f.opcode = .ping) (hFails : d.writeFailure = some e) :
    Handling d f (.error (.transport e)) d
  | pong (hOpcode : f.opcode = .pong) : Handling d f (.ok none) d
  /-- The peer begins to close, and is answered. -/
  | close (hOpcode : f.opcode = .close) (hSent : d.closeSent = false) (hWrites : d.writeFailure = none) :
    Handling d f (.ok (some (.close (CloseReason.parse? f.payload))))
      { d with closeReceived := true, closeSent := true,
               written := d.written ++ [CloseReason.frame (CloseReason.parse? f.payload)] }
  | deafClose {e : TransportError} (hOpcode : f.opcode = .close) (hSent : d.closeSent = false)
      (hFails : d.writeFailure = some e) :
    Handling d f (.error (.transport e)) { d with closeReceived := true, closeSent := true }
  /-- The peer answers a close frame. -/
  | closed (hOpcode : f.opcode = .close) (hSent : d.closeSent = true) :
    Handling d f (.ok (some (.close (CloseReason.parse? f.payload)))) { d with closeReceived := true }
  /-- A frame with data changes the message under way, and nothing else. -/
  | data {r : Except WebSocketError (Option Message)} (assembly : Option Assembly)
      (hData : f.opcode.isControl = false) (hKind : ∀ reason, r ≠ .ok (some (.close reason))) :
    Handling d f r { d with assembly }

/-- A close frame always ends the call. -/
theorem Handling.opcode_ne_close (h : Handling d f (.ok none) d') : f.opcode ≠ .close := by
  intro hClose
  cases h with
  | ping hOpcode | pong hOpcode => simp [hClose] at hOpcode
  | data _ hData => simp [hClose, Opcode.isControl] at hData

theorem Handling.settings (h : Handling d f r d') : d'.config = d.config ∧ d'.compressed = d.compressed := by
  cases h <;> exact ⟨rfl, rfl⟩

variable [Deflate.Codec]

theorem finish_ne_close (a : Assembly) (reason : Option CloseReason) : d.finish a ≠ .ok (.close reason) := by
  intro h
  unfold finish at h
  extract_lets made at h
  -- A message is made of its bytes by its kind, however they were got.
  have hMade : ∀ data, made data ≠ .ok (.close reason) := by
    intro data
    cases hKind : a.kind with
    | binary => simp [made, hKind, pure, Except.pure]
    | text => cases hText : Utf8.toText? data <;> simp [made, hKind, hText, pure, Except.pure]
  split at h
  · split at h
    · exact hMade _ h
    · contradiction
    · contradiction
  · exact hMade _ h

theorem handling_of_assemble (fin : Bool) (a : Assembly) (hData : f.opcode.isControl = false)
    {assembly : Option Assembly} :
    Handling d f (({ d with assembly }).assemble fin a).1 (({ d with assembly }).assemble fin a).2 := by
  unfold assemble
  split
  · exact .data assembly hData (by simp)
  · cases fin with
    | false => exact .data (some a) hData (by simp)
    | true =>
      refine .data assembly hData fun reason hClose => ?_
      cases hFinish : ({ d with assembly } : Dialog).finish a with
      | error e => simp [hFinish, Except.map] at hClose
      | ok m =>
        simp only [hFinish, Except.map, Except.ok.injEq, Option.some.injEq, if_true] at hClose
        rw [hClose] at hFinish
        exact finish_ne_close a reason hFinish

theorem handling_handle (d : Dialog) (f : Frame) : Handling d f (d.handle f).1 (d.handle f).2 := by
  have hBegin : ∀ kind, f.opcode.isControl = false → Handling d f (d.begin kind f).1 (d.begin kind f).2 := by
    intro kind hData
    unfold begin
    split
    · exact .data d.assembly hData (by simp)
    · exact handling_of_assemble _ _ hData
  have hExtend (hData : f.opcode.isControl = false) : Handling d f (d.extend f).1 (d.extend f).2 := by
    unfold extend
    split
    · exact .data d.assembly hData (by simp)
    · exact handling_of_assemble _ _ hData
  unfold handle
  cases hOpcode : f.opcode with
  | ping =>
    cases hWrites : d.writeFailure with
    | some e => simpa [write, hWrites] using Handling.deafPing hOpcode hWrites
    | none => simpa [write, hWrites] using Handling.ping hOpcode hWrites
  | pong => exact .pong hOpcode
  | close =>
    cases hSent : d.closeSent with
    | true => simpa [sendClose, hSent] using Handling.closed hOpcode hSent
    | false =>
      cases hWrites : d.writeFailure with
      | some e => simpa [sendClose, write, hSent, hWrites] using Handling.deafClose hOpcode hSent hWrites
      | none => simpa [sendClose, write, hSent, hWrites] using Handling.close hOpcode hSent hWrites
  | text => exact hBegin .text (by rw [hOpcode]; rfl)
  | binary => exact hBegin .binary (by rw [hOpcode]; rfl)
  | continuation => exact hExtend (by rw [hOpcode]; rfl)

theorem handling_of_handle (h : d.handle f = (r, d')) : Handling d f r d' := by
  have hHandling := handling_handle d f
  rwa [h] at hHandling

/-! ## One call -/

/-- What a call that receives a message can do to the dialog with the frames that it takes off the stream. -/
inductive Hears : Dialog → List Frame → Except WebSocketError (Option Message) → Dialog → Prop
  /-- The stream is at its end, or the peer has closed. -/
  | silence (d : Dialog) : Hears d [] (.ok none) d
  | broken {d : Dialog} (hOpen : d.closeReceived = false) (e : TransportError) : Hears d [] (.error (.transport e)) d
  | malformed {d : Dialog} (hOpen : d.closeReceived = false) (e : FrameError) :
    Hears d [] (.error (.frame e)) (d.abandon (.frame e))
  | message {d d' : Dialog} {f : Frame} {m : Message} (hOpen : d.closeReceived = false)
      (hHandle : d.handle f = (.ok (some m), d')) : Hears d [f] (.ok (some m)) d'
  | failure {d d' : Dialog} {f : Frame} {e : WebSocketError} (hOpen : d.closeReceived = false)
      (hHandle : d.handle f = (.error e, d')) : Hears d [f] (.error e) (d'.abandon e)
  | next {d d₁ d' : Dialog} {f : Frame} {fs : List Frame} {r : Except WebSocketError (Option Message)}
      (hOpen : d.closeReceived = false) (hHandle : d.handle f = (.ok none, d₁)) (hRest : Hears d₁ fs r d') :
    Hears d (f :: fs) r d'

namespace Hears

/-- Nothing is heard once the peer has closed. -/
theorem eq_nil_of_closeReceived (h : d.Hears fs r d') (hClosed : d.closeReceived = true) : fs = [] ∧ d' = d := by
  cases h with
  | silence => exact ⟨rfl, rfl⟩
  | broken hOpen | malformed hOpen | message hOpen | failure hOpen | next hOpen => simp [hClosed] at hOpen

/-- **What is written.**  The pings are answered, and a call that ends with the peer's close frame, or with a failure
that the peer is to blame for, ends with a close frame. -/
theorem written (h : d.Hears fs r d') : d'.written = d.written ++ d.answers fs r := by
  induction h with
  | silence | broken => simp [answers, farewell, pongs, WebSocketError.closeCode?]
  | malformed => exact written_abandon _ _
  | @message d d' f m hOpen hHandle =>
    cases handling_of_handle hHandle with
    | close hOpcode hSent hWrites => simp [answers, farewell, pongs, hOpcode, hSent, hWrites]
    | closed hOpcode hSent => simp [answers, pongs, hOpcode, hSent]
    | data assembly hData hKind => simp [answers, pongs_cons_of_data hData, farewell_of_ne hKind]
  | @failure d d' f e hOpen hHandle =>
    rw [written_abandon]
    cases handling_of_handle hHandle with
    | deafPing hOpcode hFails => simp [answers, hFails]
    | deafClose hOpcode hSent hFails => simp [answers, hFails]
    | data assembly hData hKind => simp [answers, pongs_cons_of_data hData]
  | @next d d₁ d' f fs r hOpen hHandle hRest ih =>
    rw [ih]
    cases handling_of_handle hHandle with
    | ping hOpcode hWrites => simp [answers, pongs, hOpcode, hWrites]
    | pong hOpcode => simp [answers, pongs, hOpcode]
    | data assembly hData hKind => simp [answers, pongs_cons_of_data hData]

/-- A close frame is remembered, and so is the one at the end of the call. -/
theorem closeSent (h : d.Hears fs r d') (hSent : d.closeSent = true ∨ farewell r ≠ []) : d'.closeSent = true := by
  induction h with
  | silence | broken => simpa [farewell, WebSocketError.closeCode?] using hSent
  | malformed => exact closeSent_abandon hSent
  | @message d d' f m hOpen hHandle =>
    cases handling_of_handle hHandle with
    | close | closed => simp_all
    | data assembly hData hKind => simpa [farewell_of_ne hKind] using hSent
  | @failure d d' f e hOpen hHandle =>
    refine closeSent_abandon ?_
    cases handling_of_handle hHandle with
    | deafPing => exact hSent
    | deafClose => exact .inl rfl
    | data => exact hSent
  | @next d d₁ d' f fs r hOpen hHandle hRest ih =>
    refine ih ?_
    cases handling_of_handle hHandle with
    | ping | pong | data => exact hSent

/-- Nothing is heard behind a close frame of the peer. -/
theorem opcode_ne_close (h : d.Hears fs r d') :
    (∀ f ∈ fs.dropLast, f.opcode ≠ .close) ∧ (d'.closeReceived = false → ∀ f ∈ fs, f.opcode ≠ .close) := by
  induction h with
  | silence | broken | malformed => simp
  | @message d d' f m hOpen hHandle =>
    refine ⟨by simp, fun hOpen' => ?_⟩
    cases handling_of_handle hHandle with
    | close | closed => simp at hOpen'
    | data assembly hData =>
      intro g hg hClose
      simp_all [Opcode.isControl]
  | failure => exact ⟨by simp, fun hOpen' => by simp [abandon] at hOpen'⟩
  | @next d d₁ d' f fs r hOpen hHandle hRest ih =>
    have hFirst := (handling_of_handle hHandle).opcode_ne_close
    constructor
    · cases fs with
      | nil => simp
      | cons g gs => simpa [hFirst] using ih.1
    · intro hOpen'
      simpa [hFirst] using ih.2 hOpen'

theorem settings (h : d.Hears fs r d') : d'.config = d.config ∧ d'.compressed = d.compressed := by
  induction h with
  | silence | broken => exact ⟨rfl, rfl⟩
  | malformed => exact settings_abandon _ _
  | message hOpen hHandle => exact (handling_of_handle hHandle).settings
  | @failure d d' f e hOpen hHandle =>
    have hFirst := (handling_of_handle hHandle).settings
    have hLast := settings_abandon e d'
    exact ⟨hLast.1.trans hFirst.1, hLast.2.trans hFirst.2⟩
  | next hOpen hHandle _ ih =>
    have hFirst := (handling_of_handle hHandle).settings
    exact ⟨ih.1.trans hFirst.1, ih.2.trans hFirst.2⟩

/-- The closing message of a call is read off a close frame that was heard. -/
theorem exists_close {reason : Option CloseReason} (h : d.Hears fs (.ok (some (.close reason))) d') :
    ∃ f ∈ fs, f.opcode = .close ∧ reason = CloseReason.parse? f.payload := by
  generalize hr : (.ok (some (.close reason)) : Except WebSocketError (Option Message)) = r at h
  induction h with
  | silence | broken | malformed | failure => cases hr
  | @message d d' f m hOpen hHandle =>
    cases hr
    refine ⟨f, by simp, ?_⟩
    cases handling_of_handle hHandle with
    | close hOpcode | closed hOpcode => exact ⟨hOpcode, rfl⟩
    | data _ _ hKind => exact absurd rfl (hKind reason)
  | next hOpen hHandle _ ih =>
    obtain ⟨f, hf, hClose⟩ := ih hr
    exact ⟨f, by simp [hf], hClose⟩

end Hears

end Dialog

namespace WebSocket

/-- What reading a frame can do. -/
inductive FrameRead (ws : WebSocket) : Except WebSocketError (Option Frame) → WebSocket → Prop
  | frame {f : Frame} {ws' : WebSocket}
      (hDecode : Frame.decode ws.decodeOptions ws.remaining = .ok (some (f, ws'.remaining)))
      (hDialog : ws'.dialog = ws.dialog) : FrameRead ws (.ok (some f)) ws'
  | ended {ws' : WebSocket} (hRest : ws'.remaining = ws.remaining) (hDialog : ws'.dialog = ws.dialog) :
    FrameRead ws (.ok none) ws'
  | broken {e : TransportError} {ws' : WebSocket} (hRest : ws'.remaining = ws.remaining)
      (hDialog : ws'.dialog = ws.dialog) : FrameRead ws (.error (.transport e)) ws'
  | malformed {e : FrameError} {ws' : WebSocket} (hRest : ws'.remaining = ws.remaining)
      (hDialog : ws'.dialog = ws.dialog.abandon (.frame e)) : FrameRead ws (.error (.frame e)) ws'

/-- It does not matter which of the bytes are in the buffer. -/
theorem FrameRead.of_remaining_eq {ws ws₁ ws' : WebSocket} {r : Except WebSocketError (Option Frame)}
    (h : FrameRead ws₁ r ws') (hRest : ws₁.remaining = ws.remaining) (hDialog : ws₁.dialog = ws.dialog) :
    FrameRead ws r ws' := by
  have hOptions : ws₁.decodeOptions = ws.decodeOptions := by simp only [decodeOptions, hDialog]
  cases h with
  | frame hDecode hSame =>
    rw [hOptions, hRest] at hDecode
    exact .frame hDecode (hSame.trans hDialog)
  | ended hLeft hSame => exact .ended (hLeft.trans hRest) (hSame.trans hDialog)
  | broken hLeft hSame => exact .broken (hLeft.trans hRest) (hSame.trans hDialog)
  | malformed hLeft hSame =>
    rw [hDialog] at hSame
    exact .malformed (hLeft.trans hRest) hSame

theorem frameRead_readFrame (ws : WebSocket) : FrameRead ws ws.readFrame.1 ws.readFrame.2 := by
  fun_induction readFrame ws with
  | case1 ws e buffered hTake =>
    obtain ⟨-, rfl⟩ := Frame.takeFront_eq_error_iff.mp hTake
    exact .malformed rfl rfl
  | case2 ws f rest hTake =>
    refine .frame ?_ rfl
    exact Frame.decode_append_of_frame (Frame.takeFront_eq_frame_iff.mp hTake) _
  | case3 ws buffered hTake e hRead =>
    obtain ⟨-, rfl⟩ := Frame.takeFront_eq_none_iff.mp hTake
    exact .broken rfl rfl
  | case4 ws buffered hTake io hRead =>
    obtain ⟨-, rfl⟩ := Frame.takeFront_eq_none_iff.mp hTake
    have hRest : { ws with io }.remaining = ws.remaining := by
      simp [remaining, Upgraded.remaining_of_read hRead]
    cases ws.buffered.isEmpty with
    | true => exact .ended hRest rfl
    | false => exact .broken hRest rfl
  | case5 ws buffered hTake b bs io hRead ih =>
    obtain ⟨-, rfl⟩ := Frame.takeFront_eq_none_iff.mp hTake
    have hRest : { ws with io, buffered := ws.buffered ++ b :: bs }.remaining = ws.remaining := by
      simp [remaining, Upgraded.remaining_of_read hRead]
    exact ih.of_remaining_eq hRest rfl

theorem frameRead_of_readFrame {ws ws' : WebSocket} {r : Except WebSocketError (Option Frame)}
    (h : ws.readFrame = (r, ws')) : FrameRead ws r ws' := by
  have hRead := frameRead_readFrame ws
  rwa [h] at hRead

variable [Deflate.Codec]

/-- A call does to the dialog what it can do with the frames that it takes off the front of the bytes. -/
theorem recv_hears (ws : WebSocket) :
    ∃ heard, ws.dialog.Hears heard ws.recv.1 ws.recv.2.dialog ∧
      Frame.Reads ws.decodeOptions ws.remaining heard ws.recv.2.remaining := by
  fun_induction recv ws with
  | case1 ws hClosed => exact ⟨[], .silence _, .nil _⟩
  | case2 ws hOpen e ws' hRead =>
    have hOpen : ws.dialog.closeReceived = false := by simpa using hOpen
    refine ⟨[], ?_, ?_⟩
    · cases frameRead_of_readFrame hRead with
      | broken _ hDialog =>
        rw [hDialog]
        exact .broken hOpen _
      | malformed _ hDialog =>
        rw [hDialog]
        exact .malformed hOpen _
    · cases frameRead_of_readFrame hRead with
      | broken hRest | malformed hRest =>
        rw [hRest]
        exact .nil _
  | case3 ws hOpen ws' hRead =>
    cases frameRead_of_readFrame hRead with
    | ended hRest hDialog =>
      refine ⟨[], ?_, ?_⟩
      · rw [hDialog]
        exact .silence _
      · rw [hRest]
        exact .nil _
  | case4 ws hOpen f ws₁ hRead m dialog hHandle =>
    have hOpen : ws.dialog.closeReceived = false := by simpa using hOpen
    cases frameRead_of_readFrame hRead with
    | frame hDecode hDialog =>
      rw [hDialog] at hHandle
      exact ⟨[f], .message hOpen hHandle, .cons hDecode (.nil _)⟩
  | case5 ws hOpen f ws₁ hRead dialog hHandle ih =>
    have hOpen : ws.dialog.closeReceived = false := by simpa using hOpen
    cases frameRead_of_readFrame hRead with
    | frame hDecode hDialog =>
      rw [hDialog] at hHandle
      obtain ⟨heard, hHears, hReads⟩ := ih
      have hSettings := (Dialog.handling_of_handle hHandle).settings
      have hOptions : { ws₁ with dialog }.decodeOptions = ws.decodeOptions := by
        simp only [decodeOptions, hSettings.1, hSettings.2]
      rw [hOptions] at hReads
      exact ⟨f :: heard, .next hOpen hHandle hHears, .cons hDecode hReads⟩
  | case6 ws hOpen f ws₁ hRead e dialog hHandle =>
    have hOpen : ws.dialog.closeReceived = false := by simpa using hOpen
    cases frameRead_of_readFrame hRead with
    | frame hDecode hDialog =>
      rw [hDialog] at hHandle
      exact ⟨[f], .failure hOpen hHandle, .cons hDecode (.nil _)⟩

end WebSocket
end HttpServer
