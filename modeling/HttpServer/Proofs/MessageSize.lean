import HttpServer.Proofs.ClosingHandshake
import HttpServer.Proofs.Utf8Pieces

/-!
# The size of messages

A WebSocket has a ceiling for its messages.  The fragments that it has put together so far are never longer than the
ceiling, and neither is a message that it returns, as it was sent or decompressed (`WebSocket.run_messages_fit`).

The size of the fragments is looked at before they are kept (`Dialog.assemble_fits`).  A compressed message is looked at
behind each call of the codec, whatever this call has given (`Deflate.length_of_inflateFrom`), so it can only grow up to
the ceiling.  Hence `Dialog.FitsIn` is kept by each frame, whatever it says, and by everything that an application can
do.
-/

namespace HttpServer

/-- The text or the bytes of the message are no longer than `limit`; a message without data has no size. -/
def Message.FitsIn (limit : Nat) (m : Message) : Prop :=
  ∀ kind data, m.data? = some (kind, data) → data.length ≤ limit

namespace Dialog

/-- The ceiling is `limit`, and the message under way is no longer. -/
structure FitsIn (limit : Nat) (d : Dialog) : Prop where
  ceiling : d.config.maxMessageSize = limit
  assembly : ∀ a ∈ d.assembly, a.data.length ≤ limit

variable {limit : Nat} {d d' : Dialog} {f : Frame} {a : Assembly} {m : Message}
  {r : Except WebSocketError (Option Message)}

theorem FitsIn.of_assembly (h : d.FitsIn limit) (hConfig : d'.config = d.config)
    (hAssembly : d'.assembly = d.assembly) : d'.FitsIn limit :=
  ⟨by rw [hConfig]; exact h.ceiling, by rw [hAssembly]; exact h.assembly⟩

theorem fitsIn_of_sending (h : d.FitsIn limit) (hSending : d.Sending d') : d'.FitsIn limit := by
  cases hSending with
  | nothing | frame | close | deafClose => exact h.of_assembly rfl rfl

theorem assembly_abandon (e : WebSocketError) (d : Dialog) : (d.abandon e).assembly = d.assembly := by
  unfold abandon sendClose write
  cases e.closeCode? <;> cases d.closeSent <;> cases d.writeFailure <;> rfl

theorem fitsIn_abandon (h : d.FitsIn limit) (e : WebSocketError) : (d.abandon e).FitsIn limit :=
  h.of_assembly (settings_abandon e d).1 (assembly_abandon e d)

/-! ## One frame -/

variable [Deflate.Codec]

/-- A message of fragments that are not too long is not too long either, though it may have been compressed. -/
theorem fitsIn_of_finish (hCeiling : d.config.maxMessageSize = limit) (hSize : a.data.length ≤ limit)
    (hFinish : d.finish a = .ok m) : m.FitsIn limit := by
  unfold finish at hFinish
  extract_lets made at hFinish
  -- Whatever the kind, the message is as long as its bytes.
  have hMade : ∀ data : Bytes, data.length ≤ limit → made data = .ok m → m.FitsIn limit := by
    intro data hData hMessage kind content hContent
    cases hKind : a.kind with
    | binary =>
      simp only [made, hKind, pure, Except.pure, Except.ok.injEq] at hMessage
      subst hMessage
      obtain ⟨-, rfl⟩ := Prod.mk.inj (Option.some.inj hContent)
      exact hData
    | text =>
      cases hText : Utf8.toText? data with
      | none => simp [made, hKind, hText] at hMessage
      | some text =>
        simp only [made, hKind, hText, pure, Except.pure, Except.ok.injEq] at hMessage
        subst hMessage
        obtain ⟨-, rfl⟩ := Prod.mk.inj (Option.some.inj hContent)
        rw [Utf8.ofText_of_toText? hText]
        exact hData
  split at hFinish
  · split at hFinish
    · rename_i data hInflate
      exact hMade data (hCeiling ▸ Deflate.length_of_inflate hInflate) hFinish
    · contradiction
    · contradiction
  · exact hMade a.data hSize hFinish

/-- Fragments are kept, and put together, only if they are not too long. -/
theorem assemble_fits {fin : Bool} (h : d.FitsIn limit) :
    (d.assemble fin a).2.FitsIn limit ∧ ∀ m, (d.assemble fin a).1 = .ok (some m) → m.FitsIn limit := by
  unfold assemble checkSize
  by_cases hLong : d.config.maxMessageSize < a.data.length
  · simpa [hLong] using h
  · have hSize : a.data.length ≤ limit := by
      rw [← h.ceiling]
      omega
    simp only [if_neg hLong]
    cases fin with
    | false => exact ⟨⟨h.ceiling, by simpa using hSize⟩, by simp⟩
    | true =>
      refine ⟨h, fun m hMessage => ?_⟩
      cases hFinish : d.finish a with
      | error e => simp [hFinish, Except.map] at hMessage
      | ok m' =>
        simp only [hFinish, Except.map, if_true, Except.ok.injEq, Option.some.injEq] at hMessage
        exact hMessage ▸ fitsIn_of_finish h.ceiling hSize hFinish

/-- A control frame has no part in the message under way. -/
theorem handle_control_fits (h : d.FitsIn limit) (hControl : f.opcode.isControl = true) :
    (d.handle f).2.FitsIn limit ∧ ∀ m, (d.handle f).1 = .ok (some m) → m.FitsIn limit := by
  have hHandling := handling_handle d f
  generalize d.handle f = answer at hHandling
  obtain ⟨r, d'⟩ := answer
  -- The only message here is the one that the peer has closed, and it has no data.
  have hClosing : ∀ reason m, (.ok (some (.close reason)) : Except WebSocketError (Option Message)) = .ok (some m) →
      m.FitsIn limit := by
    rintro reason _ ⟨⟩ kind data hData
    cases hData
  cases hHandling with
  | ping | deafPing | pong | deafClose => exact ⟨h.of_assembly rfl rfl, by simp⟩
  | close | closed => exact ⟨h.of_assembly rfl rfl, hClosing _⟩
  | data _ hData => simp [hControl] at hData

/-- No frame makes the message under way too long, or completes one that is. -/
theorem handle_fits (h : d.FitsIn limit) (f : Frame) :
    (d.handle f).2.FitsIn limit ∧ ∀ m, (d.handle f).1 = .ok (some m) → m.FitsIn limit := by
  have hBegin : ∀ kind, (d.begin kind f).2.FitsIn limit ∧
      ∀ m, (d.begin kind f).1 = .ok (some m) → m.FitsIn limit := by
    intro kind
    unfold begin
    split
    · exact ⟨h, by simp⟩
    · exact assemble_fits h
  have hExtend : (d.extend f).2.FitsIn limit ∧ ∀ m, (d.extend f).1 = .ok (some m) → m.FitsIn limit := by
    unfold extend
    split
    · exact ⟨h, by simp⟩
    · exact assemble_fits ⟨h.ceiling, by simp⟩
  cases hOpcode : f.opcode with
  | text => simpa only [handle, hOpcode] using hBegin .text
  | binary => simpa only [handle, hOpcode] using hBegin .binary
  | continuation => simpa only [handle, hOpcode] using hExtend
  | ping | pong | close => exact handle_control_fits h (by rw [hOpcode]; rfl)

theorem fitsIn_of_handle (h : d.FitsIn limit) (hHandle : d.handle f = (r, d')) : d'.FitsIn limit := by
  have hFits := (handle_fits h f).1
  rwa [hHandle] at hFits

end Dialog

namespace WebSocket

variable {limit : Nat} {ws ws₁ ws₂ ws' : WebSocket}

/-! ## One call -/

theorem fitsIn_of_readFrame {r : Except WebSocketError (Option Frame)} (h : ws.dialog.FitsIn limit)
    (hRead : ws.readFrame = (r, ws')) : ws'.dialog.FitsIn limit := by
  cases frameRead_of_readFrame hRead with
  | frame _ hDialog | ended _ hDialog | broken _ hDialog => rwa [hDialog]
  | malformed _ hDialog =>
    rw [hDialog]
    exact Dialog.fitsIn_abandon h _

variable [Deflate.Codec]

/-- The states that a call that receives goes through: the one that it begins with, and one behind each frame. -/
inductive Passes (ws : WebSocket) : WebSocket → Prop
  | start : Passes ws ws
  | frame {ws₁ ws₂ : WebSocket} {f : Frame} {r : Except WebSocketError (Option Message)} {dialog : Dialog}
      (hPasses : Passes ws ws₁) (hOpen : ws₁.dialog.closeReceived = false)
      (hRead : ws₁.readFrame = (.ok (some f), ws₂)) (hHandle : ws₂.dialog.handle f = (r, dialog)) :
    Passes ws { ws₂ with dialog }

theorem Passes.fitsIn (hPasses : ws.Passes ws') (h : ws.dialog.FitsIn limit) : ws'.dialog.FitsIn limit := by
  induction hPasses with
  | start => exact h
  | frame _ _ hRead hHandle ih => exact Dialog.fitsIn_of_handle (fitsIn_of_readFrame ih hRead) hHandle

/-- A call leaves a message under way that is not too long, and so is the message that it returns. -/
theorem recv_fits (h : ws.dialog.FitsIn limit) :
    ws.recv.2.dialog.FitsIn limit ∧ ∀ m, ws.recv.1 = .ok (some m) → m.FitsIn limit := by
  fun_induction recv ws with
  | case1 ws hClosed => exact ⟨h, by simp⟩
  | case2 ws hOpen e ws' hRead => exact ⟨fitsIn_of_readFrame h hRead, by simp⟩
  | case3 ws hOpen ws' hRead => exact ⟨fitsIn_of_readFrame h hRead, by simp⟩
  | case4 ws hOpen f ws₁ hRead m dialog hHandle =>
    have hFits := Dialog.handle_fits (fitsIn_of_readFrame h hRead) f
    rw [hHandle] at hFits
    refine ⟨hFits.1, fun m' hMessage => ?_⟩
    obtain rfl : m = m' := by simpa using hMessage
    exact hFits.2 m rfl
  | case5 ws hOpen f ws₁ hRead dialog hHandle ih =>
    exact ih (Dialog.fitsIn_of_handle (fitsIn_of_readFrame h hRead) hHandle)
  | case6 ws hOpen f ws₁ hRead e dialog hHandle =>
    exact ⟨Dialog.fitsIn_abandon (Dialog.fitsIn_of_handle (fitsIn_of_readFrame h hRead) hHandle) e, by simp⟩

/-! ## Any number of calls -/

theorem perform_fits (h : ws.dialog.FitsIn limit) (call : Call) : (ws.perform call).dialog.FitsIn limit := by
  cases call with
  | recv => exact (recv_fits h).1
  | send m => exact Dialog.fitsIn_of_sending h (Dialog.sending_send m ws.dialog)
  | close reason => exact Dialog.fitsIn_of_sending h (Dialog.sending_sendClose reason ws.dialog)
  | failWrites => exact h.of_assembly rfl rfl

theorem run_fits (h : ws.dialog.FitsIn limit) (calls : List Call) : (ws.run calls).dialog.FitsIn limit := by
  induction calls generalizing ws with
  | nil => exact h
  | cons call calls ih => exact ih (perform_fits h call)

/-- **The size of messages.**  Whatever arrives on the stream, and whatever the application has done with a WebSocket so
far: while it receives, the fragments put together are never longer than the ceiling, and neither is a text or binary
message that it returns, compressed or not, in however many fragments. -/
theorem run_messages_fit (config : WebSocketConfig) (compressed : Bool) (io : Upgraded) (calls : List Call) :
    let start : WebSocket := { io, dialog := { config, compressed } }
    let ws := start.run calls
    (∀ ws', ws.Passes ws' → ∀ a ∈ ws'.dialog.assembly, a.data.length ≤ config.maxMessageSize) ∧
      ∀ m kind data, ws.recv.1 = .ok (some m) → m.data? = some (kind, data) →
        data.length ≤ config.maxMessageSize := by
  intro start ws
  have hStart : start.dialog.FitsIn config.maxMessageSize := ⟨rfl, by simp [start]⟩
  have hFits : ws.dialog.FitsIn config.maxMessageSize := run_fits hStart calls
  constructor
  · intro ws' hPasses
    exact (hPasses.fitsIn hFits).assembly
  · intro m kind data hMessage hData
    exact (recv_fits hFits).2 m hMessage kind data hData

end WebSocket

section Example

attribute [local instance] Deflate.Codec.stored

namespace WebSocket

/-- A compressed text in two fragments, where seven bytes are allowed: this is as many as its fragments have together,
and the text has two less. -/
theorem recv_compressed_fragments :
    let mask : Mask := ⟨0x37, 0xFA, 0x21, 0x3D⟩
    let first : Frame :=
      { fin := false, rsv1 := true, opcode := .text, mask := some mask, payload := [0xF2, 0x48, 0xCD] }
    let last : Frame := { opcode := .continuation, mask := some mask, payload := [0xC9, 0xC9, 0x07, 0x00] }
    let io : Upgraded := { inbound := { chunks := [first.encode, last.encode] } }
    let start : WebSocket := { io, dialog := { config := { maxMessageSize := 7 }, compressed := true } }
    (∃ ws', (start.run []).Passes ws' ∧ ws'.dialog.assembly = some ⟨.text, true, [0xF2, 0x48, 0xCD]⟩ ∧
      [0xF2, 0x48, 0xCD].length ≤ 7) ∧
      (start.run []).recv.1 = .ok (some (.text "Hello")) ∧ (Utf8.ofText "Hello").length ≤ 7 := by
  intro mask first last io start
  obtain ⟨hPartial, hMessage⟩ := run_messages_fit { maxMessageSize := 7 } true io []
  have hFirst : first.Permitted start.decodeOptions := ⟨by decide, by decide, by decide, by decide, by decide⟩
  have hLast : last.Permitted start.decodeOptions := ⟨by decide, by decide, by decide, by decide, by decide⟩
  have hBytes : start.remaining = first.encode ++ last.encode := by
    simp [remaining, Upgraded.remaining, Inbound.remaining, start, io]
  -- The first fragment is kept.
  have hDecode₁ := Frame.decode_encode hFirst last.encode
  rw [← hBytes] at hDecode₁
  obtain ⟨ws₁, hRead₁, hRest₁, hDialog₁, -⟩ := readFrame_of_decode hDecode₁
  let kept : Dialog := { start.dialog with assembly := some ⟨.text, true, [0xF2, 0x48, 0xCD]⟩ }
  have hHandle₁ : ws₁.dialog.handle first = (.ok none, kept) := by
    rw [hDialog₁]
    rfl
  have hPasses : (start.run []).Passes { ws₁ with dialog := kept } := .frame .start rfl hRead₁ hHandle₁
  -- The second one completes the message.
  have hDecode₂ := Frame.decode_encode hLast []
  have hBytes' : { ws₁ with dialog := kept }.remaining = last.encode ++ [] := by simpa [remaining] using hRest₁
  have hOptions : start.decodeOptions = { ws₁ with dialog := kept }.decodeOptions := rfl
  rw [← hBytes', hOptions] at hDecode₂
  obtain ⟨ws₂, hRead₂, -, hDialog₂, -⟩ := readFrame_of_decode hDecode₂
  have hComplete : Dialog.handle { opcode := .continuation, payload := [0xC9, 0xC9, 0x07, 0x00] }
      { config := { maxMessageSize := 7 }, compressed := true,
        assembly := some ⟨.text, true, [0xF2, 0x48, 0xCD]⟩ } =
      (.ok (some (.text "Hello")), { config := { maxMessageSize := 7 }, compressed := true }) := by
    decide +kernel
  have hHandle₂ : ws₂.dialog.handle last = (.ok (some (.text "Hello")), start.dialog) := by
    rw [hDialog₂]
    exact hComplete
  have hRecv : (start.run []).recv.1 = .ok (some (.text "Hello")) := by
    calc
      (start.run []).recv.1 = { ws₁ with dialog := kept }.recv.1 := by rw [← recv_of_frame rfl hRead₁ hHandle₁]; rfl
      _ = .ok (some (.text "Hello")) := by rw [recv_of_message rfl hRead₂ hHandle₂]
  exact ⟨⟨_, hPasses, rfl, hPartial _ hPasses _ rfl⟩, hRecv, hMessage _ .text _ hRecv rfl⟩

end WebSocket

end Example
end HttpServer
