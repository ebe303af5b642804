import HttpServer.Deflate.Stored
import HttpServer.Proofs.FrameStream
import HttpServer.Proofs.Utf8
import Mathlib.Data.List.Forall2

/-!
# Messages in fragments

A client may cut a message into fragments, and it may put pings and pongs between them.  The messages arrive as they
were sent, and each ping is answered with a pong of the same payload (`WebSocket.recvAll_of_fragments`).

A dialog sees to this in two layers.  Frames that carry no data neither use nor change the message under way
(`Dialog.handleAll_of_filter`).  The frames that are left over put the messages together, one after the other
(`Dialog.handleAll_of_carries`).
-/

namespace HttpServer

/-! ## Cutting messages -/

/-- The kind and the bytes of a message that is sent as data. -/
def Message.data? : Message → Option (DataKind × Bytes)
  | .text content => some (.text, Utf8.ofText content)
  | .binary content => some (.binary, content)
  | .ping _ | .pong _ | .close _ => none

/-- The frames of a message in fragments, of which the first has the opcode of the message. -/
def fragmentFrames (opcode : Opcode) : List (Mask × Bytes) → List Frame
  | [] => []
  | [(mask, payload)] => [{ opcode, mask := some mask, payload }]
  | (mask, payload) :: piece :: pieces =>
    { fin := false, opcode, mask := some mask, payload } :: fragmentFrames .continuation (piece :: pieces)

/-- The bytes of fragments, put together. -/
def joinFragments (pieces : List (Mask × Bytes)) : Bytes :=
  pieces.flatMap Prod.snd

/-- The frames carry a message of at most `limit` bytes: it is cut into fragments in some way, each under some mask. -/
def Carries (limit : Nat) (frames : List Frame) (m : Message) : Prop :=
  ∃ kind pieces, pieces ≠ [] ∧ m.data? = some (kind, joinFragments pieces) ∧ (joinFragments pieces).length ≤ limit ∧
    frames = fragmentFrames kind.opcode pieces

/-- The pongs that answer the pings among some frames. -/
def pongs (frames : List Frame) : List Frame :=
  (frames.filter (·.opcode = .ping)).map fun f => .pong f.payload

namespace Dialog

variable [Deflate.Codec] {d d' : Dialog} {fs : List Frame} {ms : List Message}

/-! ## Putting them together -/

theorem finish_of_data {m : Message} {kind : DataKind} {data : Bytes} (h : m.data? = some (kind, data)) :
    d.finish { kind, compressed := false, data } = .ok m := by
  cases m with
  | text content =>
    obtain ⟨rfl, rfl⟩ := Prod.mk.inj (Option.some.inj h)
    simp [finish, bind, Except.bind, pure, Except.pure]
  | binary content =>
    obtain ⟨rfl, rfl⟩ := Prod.mk.inj (Option.some.inj h)
    rfl
  | ping | pong | close => simp [Message.data?] at h

theorem assemble_of_fits {fin : Bool} {a : Assembly} (hSize : a.data.length ≤ d.config.maxMessageSize) :
    d.assemble fin a =
      if fin then ((d.finish a).map some, d) else (.ok none, { d with assembly := some a }) := by
  have hFits : d.checkSize a.data.length = .ok () := by
    unfold checkSize
    rw [if_neg (by omega)]
  simp only [assemble, hFits]

/-- A message under way is completed by the fragments that are still to come.  The induction is on these; what has come
so far grows with each of them. -/
theorem handleAll_of_continuation {m : Message} {kind : DataKind} {pieces : List (Mask × Bytes)} {data : Bytes}
    (hSome : pieces ≠ []) (hMessage : m.data? = some (kind, data ++ joinFragments pieces))
    (hSize : (data ++ joinFragments pieces).length ≤ d.config.maxMessageSize) :
    { d with assembly := some { kind, compressed := false, data } }.handleAll (fragmentFrames .continuation pieces) =
      .ok ([m], { d with assembly := none }) := by
  induction pieces generalizing data with
  | nil => exact absurd rfl hSome
  | cons piece pieces ih =>
    obtain ⟨mask, payload⟩ := piece
    have hPart : (data ++ payload).length ≤ d.config.maxMessageSize := by
      simp only [joinFragments, List.flatMap_cons, List.length_append] at hSize ⊢
      omega
    -- A fragment is put behind what has come, and the rest is as for a whole message.
    have hExtend : ∀ fin,
        { d with assembly := some { kind, compressed := false, data } }.handle
            { fin, opcode := .continuation, mask := some mask, payload } =
          { d with assembly := none }.assemble fin { kind, compressed := false, data := data ++ payload } :=
      fun _ => rfl
    cases pieces with
    | nil =>
      simp only [joinFragments, List.flatMap_cons, List.flatMap_nil, List.append_nil] at hMessage
      have hLast := (hExtend true).trans (assemble_of_fits hPart)
      rw [if_pos rfl, finish_of_data hMessage] at hLast
      rw [fragmentFrames, handleAll_cons hLast]
      rfl
    | cons next pieces =>
      have hFragment := (hExtend false).trans (assemble_of_fits hPart)
      have hMessage' : m.data? = some (kind, data ++ payload ++ joinFragments (next :: pieces)) := by
        simpa [joinFragments] using hMessage
      have hSize' : (data ++ payload ++ joinFragments (next :: pieces)).length ≤ d.config.maxMessageSize := by
        simpa [joinFragments, Nat.add_assoc] using hSize
      rw [fragmentFrames, handleAll_cons hFragment]
      exact congrArg (Except.map _) (ih (List.cons_ne_nil _ _) hMessage' hSize')

theorem handleAll_of_fragments {m : Message} {kind : DataKind} {pieces : List (Mask × Bytes)}
    (hNone : d.assembly = none) (hSome : pieces ≠ []) (hMessage : m.data? = some (kind, joinFragments pieces))
    (hSize : (joinFragments pieces).length ≤ d.config.maxMessageSize) :
    d.handleAll (fragmentFrames kind.opcode pieces) = .ok ([m], d) := by
  obtain ⟨⟨mask, payload⟩, pieces, rfl⟩ := List.exists_cons_of_ne_nil hSome
  have hPart : payload.length ≤ d.config.maxMessageSize := by
    simp only [joinFragments, List.flatMap_cons, List.length_append] at hSize
    omega
  have hBegin : ∀ fin, d.handle { fin, opcode := kind.opcode, mask := some mask, payload } =
      d.assemble fin { kind, compressed := false, data := payload } := by
    intro fin
    cases kind <;> simp [handle, begin, DataKind.opcode, hNone]
  cases pieces with
  | nil =>
    simp only [joinFragments, List.flatMap_cons, List.flatMap_nil, List.append_nil] at hMessage
    have hWhole := (hBegin true).trans (assemble_of_fits hPart)
    rw [if_pos rfl, finish_of_data hMessage] at hWhole
    rw [fragmentFrames, handleAll_cons hWhole]
    rfl
  | cons next pieces =>
    have hFirst := (hBegin false).trans (assemble_of_fits hPart)
    have hRest := handleAll_of_continuation (d := d) (List.cons_ne_nil next pieces) hMessage hSize
    have hSame : { d with assembly := none } = d := by
      rw [← hNone]
    rw [hSame] at hRest
    rw [fragmentFrames, handleAll_cons hFirst]
    exact congrArg (Except.map _) hRest

/-- Messages that come one after the other are put together one after the other. -/
theorem handleAll_of_carries {parts : List (List Frame)} (hNone : d.assembly = none)
    (hParts : List.Forall₂ (Carries d.config.maxMessageSize) parts ms) :
    d.handleAll parts.flatten = .ok (ms, d) := by
  induction hParts with
  | nil => rfl
  | cons hFirst _ ih =>
    obtain ⟨kind, pieces, hSome, hMessage, hSize, rfl⟩ := hFirst
    exact handleAll_append (handleAll_of_fragments hNone hSome hMessage hSize) ih

/-! ## Pings and pongs between them -/

/-- A frame with data is handled without a look at what was written. -/
theorem handle_of_written (written : List Frame) {f : Frame} (hData : f.opcode.isControl = false) :
    { d with written }.handle f = ((d.handle f).1, { (d.handle f).2 with written }) := by
  have hAssemble : ∀ (fin : Bool) (a : Assembly) (d : Dialog),
      { d with written }.assemble fin a = ((d.assemble fin a).1, { (d.assemble fin a).2 with written }) := by
    intro fin a d
    have hCheck : { d with written }.checkSize a.data.length = d.checkSize a.data.length := rfl
    unfold assemble
    rw [hCheck]
    cases d.checkSize a.data.length with
    | error e => rfl
    | ok => cases fin <;> rfl
  have hBegin : ∀ kind,
      { d with written }.begin kind f = ((d.begin kind f).1, { (d.begin kind f).2 with written }) := by
    intro kind
    unfold begin
    cases hSome : d.assembly.isSome with
    | true => simp
    | false => simpa using hAssemble f.fin _ d
  have hExtend : { d with written }.extend f = ((d.extend f).1, { (d.extend f).2 with written }) := by
    obtain ⟨config, compressed, assembly, closeSent, closeReceived, old, writeFailure⟩ := d
    cases assembly with
    | none => rfl
    | some a =>
      exact hAssemble f.fin { a with data := a.data ++ f.payload }
        ⟨config, compressed, none, closeSent, closeReceived, old, writeFailure⟩
  unfold handle
  cases hOpcode : f.opcode with
  | ping | pong | close => simp [hOpcode, Opcode.isControl] at hData
  | text => exact hBegin .text
  | binary => exact hBegin .binary
  | continuation => exact hExtend

/-- Frames without data change nothing but what was written, and that by the pongs.  The induction is on all frames; the
ones with data are handled alike with the pongs written before and without. -/
theorem handleAll_of_filter (hWrites : d.writeFailure = none) (hClose : ∀ f ∈ fs, f.opcode ≠ .close)
    (h : d.handleAll (fs.filter (!·.opcode.isControl)) = .ok (ms, d')) (written : List Frame) :
    { d with written }.handleAll fs = .ok (ms, { d' with written := written ++ pongs fs }) := by
  induction fs generalizing d ms written with
  | nil =>
    simp only [List.filter_nil, handleAll, Except.ok.injEq, Prod.mk.injEq] at h
    obtain ⟨rfl, rfl⟩ := h
    simp [handleAll, pongs]
  | cons f fs ih =>
    have hRest : ∀ g ∈ fs, g.opcode ≠ .close := fun g hg => hClose g (by simp [hg])
    cases hControl : f.opcode.isControl with
    | false =>
      rw [List.filter_cons_of_pos (by simp [hControl])] at h
      obtain ⟨m, d₁, rest, hHandle, hData, rfl⟩ := handleAll_cons_eq_ok_iff.mp h
      have hWrites₁ := (kept_of_handle hHandle (hClose f (by simp))).writeFailure
      have hFirst := handle_of_written (d := d) written hControl
      have hPing : f.opcode ≠ .ping := fun hOpcode => by simp [hOpcode, Opcode.isControl] at hControl
      rw [hHandle] at hFirst
      rw [handleAll_cons hFirst, ih (hWrites₁.trans hWrites) hRest hData written]
      simp [pongs, hPing, Except.map]
    | true =>
      rw [List.filter_cons_of_neg (by simp [hControl])] at h
      cases hOpcode : f.opcode with
      | ping =>
        have hFirst : { d with written }.handle f = (.ok none, { d with written := written ++ [.pong f.payload] }) := by
          simp [handle, hOpcode, write, hWrites]
        rw [handleAll_cons hFirst, ih hWrites hRest h]
        simp [pongs, hOpcode, Except.map]
      | pong =>
        have hFirst : { d with written }.handle f = (.ok none, { d with written }) := by
          simp [handle, hOpcode]
        rw [handleAll_cons hFirst, ih hWrites hRest h]
        simp [pongs, hOpcode, Except.map]
      | close => exact absurd hOpcode (hClose f (by simp))
      | text | binary | continuation => simp [hOpcode, Opcode.isControl] at hControl

end Dialog

/-! ## Over the stream -/

/-- A WebSocket that was just established, and that does not compress. -/
def WebSocket.fresh (config : WebSocketConfig) (io : Upgraded) : WebSocket where
  io
  dialog := { config }

/-- **Messages in fragments arrive.**  Let a client send messages, each cut into fragments in some way and each fragment
under some mask, with pings and pongs between any two of them, and let the bytes come in any pieces.  Then a new
WebSocket receives these messages, in order, and after them that there are no more; and what it has written is one pong
for each ping, with the payload of that ping, in order and without a mask. -/
theorem WebSocket.recvAll_of_fragments [Deflate.Codec] (config : WebSocketConfig) (io : Upgraded) (frames : List Frame)
    (messages : List Message) (parts : List (List Frame))
    (hParts : List.Forall₂ (Carries config.maxMessageSize) parts messages)
    (hData : frames.filter (!·.opcode.isControl) = parts.flatten) (hClose : ∀ f ∈ frames, f.opcode ≠ .close)
    (hPermitted : ∀ f ∈ frames, f.Permitted { maxFrameSize := config.maxFrameSize })
    (hBytes : io.remaining = frames.flatMap Frame.encode) (hEnding : io.inbound.ending = .closed) :
    ∃ ws, (fresh config io).recvAll = (messages, .ok (), ws) ∧
      ws.toUpgraded.outbound.written = io.outbound.written ++ (pongs frames).flatMap Frame.encode ∧
      ∀ f ∈ pongs frames, f.mask = none := by
  have hMessages :
      ({ config } : Dialog).handleAll (frames.filter (!·.opcode.isControl)) = .ok (messages, { config }) := by
    rw [hData]
    exact Dialog.handleAll_of_carries rfl hParts
  have hHandle := Dialog.handleAll_of_filter rfl hClose hMessages []
  have hOpen : (fresh config io).dialog.closeReceived = false := rfl
  obtain ⟨ws, hAll, hDialog, hOutbound⟩ :=
    recvAll_of_frames hOpen hEnding (fun f hf => ⟨hPermitted f hf, hClose f hf⟩) hBytes hHandle
  refine ⟨ws, hAll, ?_, ?_⟩
  · -- The dialog keeps what it has written; on the stream it stands behind what was there before.
    simp [toUpgraded, Outbound.written, hDialog, hOutbound, fresh]
  · intro f hf
    obtain ⟨ping, -, rfl⟩ := List.mem_map.mp hf
    rfl

/-- A text with a ping in the middle, and bytes with an empty fragment in front and a pong behind it. -/
def interleaved : List Frame :=
  let mask : Mask := ⟨0x37, 0xFA, 0x21, 0x3D⟩
  [{ fin := false, opcode := .text, mask := some mask, payload := Utf8.ofText "Hel" },
    { opcode := .ping, mask := some ⟨0, 0, 0, 0⟩, payload := Utf8.ofText "p" },
    { opcode := .continuation, mask := some mask, payload := Utf8.ofText "lo" },
    { fin := false, opcode := .binary, mask := some mask },
    { opcode := .pong, mask := some mask },
    { opcode := .continuation, mask := some ⟨1, 2, 3, 4⟩, payload := [0xFF] }]

section Example

attribute [local instance] Deflate.Codec.stored

/-- They arrive byte by byte. -/
theorem WebSocket.recvAll_interleaved :
    let io : Upgraded := { inbound := { chunks := (interleaved.flatMap Frame.encode).map ([·]) } }
    let messages := [Message.text "Hello", Message.binary [0xFF]]
    let parts := [[interleaved[0], interleaved[2]], [interleaved[3], interleaved[5]]]
    List.Forall₂ (Carries 4194304) parts messages ∧
      interleaved.filter (!·.opcode.isControl) = parts.flatten ∧
      (∀ f ∈ interleaved, f.opcode ≠ .close) ∧ (∀ f ∈ interleaved, f.Permitted { maxFrameSize := 1048576 }) ∧
      io.remaining = interleaved.flatMap Frame.encode ∧ io.inbound.ending = .closed ∧
      ∃ ws, (fresh {} io).recvAll = (messages, .ok (), ws) ∧
        ws.toUpgraded.outbound.written = [0x8A, 1, 0x70] := by
  intro io messages parts
  have hParts : List.Forall₂ (Carries 4194304) parts messages := by
    refine .cons ⟨.text, [(⟨0x37, 0xFA, 0x21, 0x3D⟩, Utf8.ofText "Hel"), (⟨0x37, 0xFA, 0x21, 0x3D⟩, Utf8.ofText "lo")],
      by simp, by decide, by decide, rfl⟩ (.cons ⟨.binary, [(⟨0x37, 0xFA, 0x21, 0x3D⟩, []), (⟨1, 2, 3, 4⟩, [0xFF])],
      by simp, by decide, by decide, rfl⟩ .nil)
  have hData : interleaved.filter (!·.opcode.isControl) = parts.flatten := by decide
  have hClose : ∀ f ∈ interleaved, f.opcode ≠ .close := by decide
  have hPermitted : ∀ f ∈ interleaved, f.Permitted { maxFrameSize := 1048576 } := by
    simp only [interleaved, List.mem_cons, List.not_mem_nil, or_false]
    rintro f (rfl | rfl | rfl | rfl | rfl | rfl) <;> exact ⟨by decide, by decide, by decide, by decide, by decide⟩
  have hBytes : io.remaining = interleaved.flatMap Frame.encode := by decide +kernel
  obtain ⟨ws, hAll, hWritten, -⟩ :=
    recvAll_of_fragments {} io interleaved messages parts hParts hData hClose hPermitted hBytes rfl
  have hPongs : io.outbound.written ++ (pongs interleaved).flatMap Frame.encode = [0x8A, 1, 0x70] := by decide
  exact ⟨hParts, hData, hClose, hPermitted, hBytes, rfl, ws, hAll, hWritten.trans hPongs⟩

end Example

end HttpServer
