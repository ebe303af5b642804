import HttpServer.WebSocket.Frame

/-!
# Reading frames off a buffer

`Frame.decode` looks for a frame at the front of a buffer, or answers that more bytes are needed, or says what
is wrong.  Each check runs as soon as the bytes that it looks at are there, so a frame that is too long is
refused before its payload has arrived.  `Frame.takeFront` takes the frame off; without one the buffer stays as
it is.

A frame that was read came off the front (`append_of_decode`), which is also why reading all frames of a
buffer comes to an end.
-/

namespace HttpServer

/-- What is wrong with a frame. -/
inductive FrameError where
  | reservedBits
  | unknownOpcode (code : Nat)
  | controlTooLong
  | fragmentedControl
  | unmasked
  | invalidLength
  | tooLarge (length limit : Nat)
  deriving DecidableEq, Repr

/-- What the error says. -/
def FrameError.message : FrameError → String
  | .reservedBits => "reserved bits set without a negotiated extension"
  | .unknownOpcode code => "unknown opcode 0x" ++ String.ofList (Nat.toDigits 16 code)
  | .controlTooLong => "control frame payload longer than 125 bytes"
  | .fragmentedControl => "fragmented control frame"
  | .unmasked => "client frame is not masked"
  | .invalidLength => "invalid payload length"
  | .tooLarge length limit =>
    "frame of " ++ String.ofList (decimal length) ++ " bytes exceeds limit of " ++
      String.ofList (decimal limit) ++ " bytes"

/-- What a reader of frames accepts. -/
structure DecodeOptions where
  maxFrameSize : Nat := 1048576
  /-- Whether messages may be compressed. -/
  allowCompressed : Bool := false
  requireMask : Bool := true
  deriving DecidableEq, Repr

/-- The first two bytes of a frame. -/
structure FrameHead where
  fin : Bool
  rsv1 : Bool
  opcode : Opcode
  masked : Bool
  /-- The length if it is below 126; 126 and 127 announce a longer field. -/
  shortLength : Nat
  deriving DecidableEq, Repr

/-- The first `n` bytes and those behind them, if there are so many. -/
def splitExact? (n : Nat) (bs : Bytes) : Option (Bytes × Bytes) :=
  if n ≤ bs.length then some (bs.take n, bs.drop n) else none

theorem append_of_splitExact? {n : Nat} {bs front rest : Bytes} (h : splitExact? n bs = some (front, rest)) :
    bs = front ++ rest ∧ front.length = n := by
  unfold splitExact? at h
  split at h
  · rename_i hn
    simp only [Option.some.injEq, Prod.mk.injEq] at h
    obtain ⟨rfl, rfl⟩ := h
    exact ⟨(List.take_append_drop n bs).symm, List.length_take_of_le hn⟩
  · simp at h

namespace FrameHead

/-- Read the two bytes, and refuse what they already show to be wrong. -/
def decode (o : DecodeOptions) (b₀ b₁ : UInt8) : Except FrameError FrameHead :=
  if b₀ &&& 0x30 ≠ 0 then .error .reservedBits
  else
    match Opcode.ofByte? b₀ with
    | none => .error (.unknownOpcode (b₀ &&& 0x0F).toNat)
    | some opcode =>
      let head : FrameHead :=
        { fin := b₀ &&& 0x80 ≠ 0, rsv1 := b₀ &&& 0x40 ≠ 0, opcode, masked := b₁ &&& 0x80 ≠ 0,
          shortLength := (b₁ &&& 0x7F).toNat }
      if head.rsv1 && !(o.allowCompressed && opcode.beginsMessage) then .error .reservedBits
      else if o.requireMask && !head.masked then .error .unmasked
      else if opcode.isControl && !head.fin then .error .fragmentedControl
      else if opcode.isControl && 125 < head.shortLength then .error .controlTooLong
      else .ok head

/-- The length of the payload and the bytes behind the length; `none` while some of it is missing. -/
def payloadLength (head : FrameHead) (rest : Bytes) : Except FrameError (Option (Nat × Bytes)) :=
  if head.shortLength < 126 then .ok (some (head.shortLength, rest))
  else if head.shortLength = 126 then
    .ok ((splitExact? 2 rest).map fun (field, rest) => (ofBigEndian field, rest))
  else
    match splitExact? 8 rest with
    | none => .ok none
    | some (field, rest) =>
      if UInt64.size / 2 ≤ ofBigEndian field then .error .invalidLength
      else .ok (some (ofBigEndian field, rest))

/-- The mask, if there is one, and the bytes behind it; `none` while some of it is missing. -/
def takeMask? (head : FrameHead) (rest : Bytes) : Option (Option Mask × Bytes) :=
  match head.masked, rest with
  | false, rest => some (none, rest)
  | true, a :: b :: c :: d :: rest => some (some ⟨a, b, c, d⟩, rest)
  | true, _ => none

/-- The frame under this head, with a payload of `length` bytes. -/
def body? (head : FrameHead) (length : Nat) (rest : Bytes) : Option (Frame × Bytes) := do
  let (mask, rest) ← head.takeMask? rest
  let (payload, rest) ← splitExact? length rest
  let payload := match mask with
    | some mask => mask.apply payload
    | none => payload
  return ({ fin := head.fin, rsv1 := head.rsv1, opcode := head.opcode, mask, payload }, rest)

theorem append_of_payloadLength {head : FrameHead} {bs rest : Bytes} {n : Nat}
    (h : head.payloadLength bs = .ok (some (n, rest))) : ∃ field, bs = field ++ rest := by
  unfold payloadLength at h
  split at h
  · simp only [Except.ok.injEq, Option.some.injEq, Prod.mk.injEq] at h
    exact ⟨[], by simp [h.2]⟩
  · split at h
    · simp only [Except.ok.injEq, Option.map_eq_some_iff, Prod.mk.injEq] at h
      obtain ⟨⟨field, rest'⟩, hSplit, -, rfl⟩ := h
      exact ⟨field, (append_of_splitExact? hSplit).1⟩
    · split at h
      · simp at h
      · rename_i field rest' hSplit
        split at h
        · simp at h
        · simp only [Except.ok.injEq, Option.some.injEq, Prod.mk.injEq] at h
          obtain ⟨-, rfl⟩ := h
          exact ⟨field, (append_of_splitExact? hSplit).1⟩

theorem append_of_takeMask? {head : FrameHead} {bs rest : Bytes} {mask : Option Mask}
    (h : head.takeMask? bs = some (mask, rest)) : ∃ field, bs = field ++ rest := by
  unfold takeMask? at h
  split at h
  · simp only [Option.some.injEq, Prod.mk.injEq] at h
    exact ⟨[], by simp [h.2]⟩
  · rename_i a b c d rest' _
    simp only [Option.some.injEq, Prod.mk.injEq] at h
    exact ⟨[a, b, c, d], by simp [h.2]⟩
  · simp at h

theorem append_of_body? {head : FrameHead} {n : Nat} {bs rest : Bytes} {f : Frame}
    (h : head.body? n bs = some (f, rest)) : ∃ field, bs = field ++ rest := by
  simp only [body?, Option.bind_eq_bind, Option.bind_eq_some_iff, Option.pure_def, Option.some.injEq,
    Prod.mk.injEq] at h
  obtain ⟨⟨mask, bs₁⟩, hMask, ⟨payload, bs₂⟩, hPayload, -, rfl⟩ := h
  obtain ⟨field, rfl⟩ := append_of_takeMask? hMask
  have hRest : bs₁ = payload ++ bs₂ := (append_of_splitExact? hPayload).1
  exact ⟨field ++ payload, by simp [hRest]⟩

end FrameHead

namespace Frame

/-- The frame at the front of a buffer, and the bytes behind it; `none` while it is not whole. -/
def decode (o : DecodeOptions) (buf : Bytes) : Except FrameError (Option (Frame × Bytes)) :=
  match buf with
  | b₀ :: b₁ :: rest =>
    match FrameHead.decode o b₀ b₁ with
    | .error e => .error e
    | .ok head =>
      match head.payloadLength rest with
      | .error e => .error e
      | .ok none => .ok none
      | .ok (some (length, rest)) =>
        if o.maxFrameSize < length then .error (.tooLarge length o.maxFrameSize)
        else .ok (head.body? length rest)
  | _ => .ok none

/-- A frame that was read came off the front, and it has at least the two bytes of its head. -/
theorem append_of_decode {o : DecodeOptions} {buf rest : Bytes} {f : Frame}
    (h : decode o buf = .ok (some (f, rest))) : ∃ wire, 2 ≤ wire.length ∧ buf = wire ++ rest := by
  unfold decode at h
  split at h
  · rename_i b₀ b₁ bs
    split at h
    · simp at h
    · rename_i head _
      split at h
      · simp at h
      · simp at h
      · rename_i n bs' hLength
        split at h
        · simp at h
        · simp only [Except.ok.injEq] at h
          obtain ⟨field, rfl⟩ := FrameHead.append_of_payloadLength hLength
          obtain ⟨field', rfl⟩ := FrameHead.append_of_body? h
          exact ⟨b₀ :: b₁ :: (field ++ field'), by simp, by simp⟩
  · simp at h

theorem length_of_decode {o : DecodeOptions} {buf rest : Bytes} {f : Frame}
    (h : decode o buf = .ok (some (f, rest))) : rest.length < buf.length := by
  obtain ⟨wire, hWire, rfl⟩ := append_of_decode h
  simp only [List.length_append]
  omega

/-- Take one frame off the front of a buffer, if it is whole and nothing is wrong with it; the answer comes with the
buffer behind the call. -/
def takeFront (o : DecodeOptions) (buf : Bytes) : Except FrameError (Option Frame) × Bytes :=
  match decode o buf with
  | .error e => (.error e, buf)
  | .ok none => (.ok none, buf)
  | .ok (some (f, rest)) => (.ok (some f), rest)

section TakeFront

variable {o : DecodeOptions} {buf left : Bytes}

@[simp]
theorem takeFront_eq_frame_iff {f : Frame} :
    takeFront o buf = (.ok (some f), left) ↔ decode o buf = .ok (some (f, left)) := by
  unfold takeFront
  split <;> simp_all

@[simp]
theorem takeFront_eq_none_iff : takeFront o buf = (.ok none, left) ↔ decode o buf = .ok none ∧ buf = left := by
  unfold takeFront
  split <;> simp_all

@[simp]
theorem takeFront_eq_error_iff {e : FrameError} :
    takeFront o buf = (.error e, left) ↔ decode o buf = .error e ∧ buf = left := by
  unfold takeFront
  split <;> simp_all

end TakeFront

/-- All frames that a buffer holds whole, what stopped the reading if it was an error, and the bytes left. -/
def decodeAll (o : DecodeOptions) (buf : Bytes) : List Frame × Option FrameError × Bytes :=
  match _ : takeFront o buf with
  | (.error e, left) => ([], some e, left)
  | (.ok none, left) => ([], none, left)
  | (.ok (some f), rest) =>
    let (frames, stop, left) := decodeAll o rest
    (f :: frames, stop, left)
termination_by buf.length
decreasing_by exact length_of_decode (takeFront_eq_frame_iff.mp (by assumption))

end Frame
end HttpServer
