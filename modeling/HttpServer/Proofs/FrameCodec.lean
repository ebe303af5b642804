import HttpServer.WebSocket.Frame.Decode

/-!
# Frames on the wire

The length of a payload can be written in three forms, so a frame can stand on the wire in up to three ways
(`Frame.wire`); the shortest of them is the one that is written.  A frame that a reader permits is read back from each
of them, whatever comes behind it (`Frame.decode_wire`), and so it is read back as it was written
(`Frame.decode_encode`).

A reader that has seen enough bytes to decide keeps to its decision when more bytes arrive: a frame that was read is
read again, with the new bytes behind it, and an error stays (`Frame.decode_append`).
-/

namespace HttpServer

/-! ## The parts of a frame -/

/-- The length in the second byte: the length itself, or the number that announces a longer field. -/
def shortForm (n : Nat) : Nat :=
  if n < 126 then n else if n < 65536 then 126 else 127

/-- The longer field for a length, if it needs one. -/
def lengthField (n : Nat) : Bytes :=
  if n < 126 then [] else if n < 65536 then bigEndian 2 n else bigEndian 8 n

/-- How a length is written: in seven bits of the second byte, or in a field behind it. -/
inductive LengthForm where
  | bits7
  | bits16
  | bits64
  deriving DecidableEq, Repr

namespace LengthForm

/-- The form is able to hold a length.  Seven bits announce a field when they are 126 or 127. -/
def Holds : LengthForm → Nat → Prop
  | bits7, n => n < 126
  | bits16, n => n < 65536
  | bits64, n => n < UInt64.size

instance (n : Nat) : (form : LengthForm) → Decidable (form.Holds n)
  | bits7 => inferInstanceAs (Decidable (n < 126))
  | bits16 => inferInstanceAs (Decidable (n < 65536))
  | bits64 => inferInstanceAs (Decidable (n < UInt64.size))

/-- What the seven bits say. -/
def announced : LengthForm → Nat → Nat
  | bits7, n => n
  | bits16, _ => 126
  | bits64, _ => 127

/-- The field behind the second byte. -/
def field : LengthForm → Nat → Bytes
  | bits7, _ => []
  | bits16, n => bigEndian 2 n
  | bits64, n => bigEndian 8 n

/-- The form in which a length is written. -/
def shortest (n : Nat) : LengthForm :=
  if n < 126 then bits7 else if n < 65536 then bits16 else bits64

variable {form : LengthForm} {n : Nat}

theorem announced_lt (h : form.Holds n) : form.announced n < 128 := by
  cases form with
  | bits7 => exact Nat.lt_trans h (by decide)
  | bits16 | bits64 => simp [announced]

theorem announced_shortest (n : Nat) : (shortest n).announced n = shortForm n := by
  unfold shortest shortForm
  split
  · rfl
  · split <;> rfl

theorem field_shortest (n : Nat) : (shortest n).field n = lengthField n := by
  unfold shortest lengthField
  split
  · rfl
  · split <;> rfl

theorem shortest_of_lt (h : n < 126) : shortest n = bits7 :=
  if_pos h

theorem holds_shortest (h : n < UInt64.size) : (shortest n).Holds n := by
  unfold shortest
  split
  · assumption
  · split
    · assumption
    · exact h

end LengthForm

namespace Frame

variable {o : DecodeOptions} {f : Frame} {form : LengthForm}

/-- What a sender has to observe for its frame to be read. -/
structure Permitted (o : DecodeOptions) (f : Frame) : Prop where
  size : f.payload.length ≤ o.maxFrameSize
  /-- The longest field for a length has 63 bits. -/
  width : f.payload.length < UInt64.size / 2
  control : f.opcode.isControl = true → f.fin = true ∧ f.payload.length ≤ 125
  compressed : f.rsv1 = true → o.allowCompressed = true ∧ f.opcode.beginsMessage = true
  masked : o.requireMask = true → f.mask.isSome = true

/-- A form in which the length of a frame may stand: it holds the length, and for a control frame it is the first. -/
structure MayUse (f : Frame) (form : LengthForm) : Prop where
  holds : form.Holds f.payload.length
  control : f.opcode.isControl = true → form = .bits7

theorem Permitted.mayUse_shortest (h : f.Permitted o) : f.MayUse (.shortest f.payload.length) where
  holds := LengthForm.holds_shortest (Nat.lt_of_lt_of_le h.width (by decide))
  control := by
    intro hControl
    have hShort := (h.control hControl).2
    exact LengthForm.shortest_of_lt (by omega)

/-- The bit that announces a mask. -/
def maskBit (f : Frame) : UInt8 :=
  if f.mask.isSome then 0x80 else 0

/-- The bytes of the mask. -/
def maskBytes (f : Frame) : Bytes :=
  match f.mask with
  | some mask => mask.bytes
  | none => []

/-- The payload as it is written. -/
def wirePayload (f : Frame) : Bytes :=
  match f.mask with
  | some mask => mask.apply f.payload
  | none => f.payload

@[simp]
theorem length_wirePayload (f : Frame) : f.wirePayload.length = f.payload.length := by
  unfold wirePayload
  split
  · exact Mask.length_apply _ _
  · rfl

theorem encodeLength_eq (bit : UInt8) (n : Nat) :
    encodeLength bit n = (bit ||| UInt8.ofNat (shortForm n)) :: lengthField n := by
  unfold encodeLength shortForm lengthField
  split
  · rfl
  · split <;> rfl

theorem encode_eq (f : Frame) :
    f.encode = f.firstByte :: (f.maskBit ||| UInt8.ofNat (shortForm f.payload.length)) ::
      (lengthField f.payload.length ++ f.maskBytes ++ f.wirePayload) := by
  unfold encode maskBit maskBytes wirePayload
  cases f.mask with
  | none => simp [encodeLength_eq]
  | some mask => simp [encodeLength_eq]

/-- The frame on the wire, with its length in the given form. -/
def wire (f : Frame) (form : LengthForm) : Bytes :=
  f.firstByte :: (f.maskBit ||| UInt8.ofNat (form.announced f.payload.length)) ::
    (form.field f.payload.length ++ f.maskBytes ++ f.wirePayload)

theorem encode_eq_wire (f : Frame) : f.encode = f.wire (.shortest f.payload.length) := by
  rw [encode_eq, wire, LengthForm.announced_shortest, LengthForm.field_shortest]

theorem firstByte_spec (f : Frame) :
    f.firstByte &&& 0x30 = 0 ∧ Opcode.ofByte? f.firstByte = some f.opcode ∧
      decide (f.firstByte &&& 0x80 ≠ 0) = f.fin ∧ decide (f.firstByte &&& 0x40 ≠ 0) = f.rsv1 := by
  unfold firstByte
  cases f.fin <;> cases f.rsv1 <;> cases f.opcode <;> decide

theorem secondByte_spec (f : Frame) {n : Nat} (hn : n < 128) :
    decide ((f.maskBit ||| UInt8.ofNat n) &&& 0x80 ≠ 0) = f.mask.isSome ∧
      ((f.maskBit ||| UInt8.ofNat n) &&& 0x7F).toNat = n := by
  have hBits : ∀ n : Fin 128,
      (decide (((0x80 : UInt8) ||| UInt8.ofNat n) &&& 0x80 ≠ 0) = true ∧
        (((0x80 : UInt8) ||| UInt8.ofNat n) &&& 0x7F).toNat = n) ∧
      (decide (((0 : UInt8) ||| UInt8.ofNat n) &&& 0x80 ≠ 0) = false ∧
        (((0 : UInt8) ||| UInt8.ofNat n) &&& 0x7F).toNat = n) := by
    decide +kernel
  unfold maskBit
  cases f.mask.isSome with
  | true => exact (hBits ⟨n, hn⟩).1
  | false => exact (hBits ⟨n, hn⟩).2

/-- The head of a frame whose length is in the given form. -/
def head (f : Frame) (form : LengthForm) : FrameHead where
  fin := f.fin
  rsv1 := f.rsv1
  opcode := f.opcode
  masked := f.mask.isSome
  shortLength := form.announced f.payload.length

theorem decode_head (h : f.Permitted o) (hForm : f.MayUse form) :
    FrameHead.decode o f.firstByte (f.maskBit ||| UInt8.ofNat (form.announced f.payload.length)) =
      .ok (f.head form) := by
  obtain ⟨hReserved, hOpcode, hFin, hRsv⟩ := firstByte_spec f
  obtain ⟨hMasked, hShort⟩ := secondByte_spec f (LengthForm.announced_lt hForm.holds)
  have hCompressed : (f.rsv1 && !(o.allowCompressed && f.opcode.beginsMessage)) = false := by
    cases hRsv1 : f.rsv1 with
    | false => rfl
    | true => simp [h.compressed hRsv1]
  have hMask : (o.requireMask && !f.mask.isSome) = false := by
    cases hRequire : o.requireMask with
    | false => rfl
    | true => simp [h.masked hRequire]
  have hWhole : (f.opcode.isControl && !f.fin) = false := by
    cases hControl : f.opcode.isControl with
    | false => rfl
    | true => simp [(h.control hControl).1]
  have hLong : (f.opcode.isControl && decide (125 < form.announced f.payload.length)) = false := by
    cases hControl : f.opcode.isControl with
    | false => rfl
    | true =>
      have hLength := (h.control hControl).2
      have hSame : form.announced f.payload.length = f.payload.length := by
        rw [hForm.control hControl]
        rfl
      simp only [hSame, Bool.true_and, decide_eq_false_iff_not]
      omega
  simp only [FrameHead.decode, hReserved, hOpcode, hFin, hRsv, hMasked, hShort, hCompressed, hMask, hWhole, hLong]
  rfl

theorem payloadLength_head (hWidth : f.payload.length < UInt64.size / 2) (hForm : form.Holds f.payload.length)
    (rest : Bytes) :
    (f.head form).payloadLength (form.field f.payload.length ++ rest) = .ok (some (f.payload.length, rest)) := by
  have hSplit : ∀ (field : Bytes), splitExact? field.length (field ++ rest) = some (field, rest) := by
    intro field
    simp [splitExact?]
  unfold FrameHead.payloadLength head
  dsimp only
  generalize f.payload.length = n at hWidth hForm ⊢
  cases form with
  | bits7 =>
    have hSmall : n < 126 := hForm
    simp [LengthForm.announced, LengthForm.field, hSmall]
  | bits16 =>
    have hField := hSplit (bigEndian 2 n)
    have hRead : ofBigEndian (bigEndian 2 n) = n := by
      rw [ofBigEndian_bigEndian]
      exact Nat.mod_eq_of_lt hForm
    rw [length_bigEndian] at hField
    simp [LengthForm.announced, LengthForm.field, hField, hRead]
  | bits64 =>
    have hField := hSplit (bigEndian 8 n)
    have hRead : ofBigEndian (bigEndian 8 n) = n := by
      rw [ofBigEndian_bigEndian]
      exact Nat.mod_eq_of_lt hForm
    rw [length_bigEndian] at hField
    simp only [LengthForm.announced, LengthForm.field, if_false, Nat.reduceLT, Nat.reduceEqDiff, hField, hRead]
    rw [if_neg (Nat.not_le.mpr hWidth)]

theorem body_head (rest : Bytes) :
    (f.head form).body? f.payload.length (f.maskBytes ++ f.wirePayload ++ rest) = some (f, rest) := by
  have hSplit : splitExact? f.payload.length (f.wirePayload ++ rest) = some (f.wirePayload, rest) := by
    rw [← length_wirePayload f]
    simp [splitExact?]
  obtain ⟨fin, rsv1, opcode, mask, payload⟩ := f
  cases mask with
  | none =>
    simp only [wirePayload] at hSplit
    simp [FrameHead.body?, FrameHead.takeMask?, head, maskBytes, wirePayload, hSplit]
  | some mask =>
    simp only [wirePayload] at hSplit
    simp [FrameHead.body?, FrameHead.takeMask?, head, maskBytes, wirePayload, Mask.bytes, hSplit]

/-- A frame that is permitted is read back from each form that it may have, and nothing behind it is touched. -/
theorem decode_wire (h : f.Permitted o) (hForm : f.MayUse form) (rest : Bytes) :
    decode o (f.wire form ++ rest) = .ok (some (f, rest)) := by
  have hLength := payloadLength_head h.width hForm.holds (f.maskBytes ++ f.wirePayload ++ rest)
  have hFits : ¬o.maxFrameSize < f.payload.length := Nat.not_lt.mpr h.size
  simp only [wire, List.cons_append, decode, decode_head h hForm, List.append_assoc] at hLength ⊢
  rw [hLength]
  dsimp only
  rw [if_neg hFits, ← List.append_assoc, body_head]

theorem decode_encode (h : f.Permitted o) (rest : Bytes) : decode o (f.encode ++ rest) = .ok (some (f, rest)) := by
  rw [encode_eq_wire]
  exact decode_wire h h.mayUse_shortest rest

end Frame

/-! ## More bytes -/

/-- An answer with more bytes behind those that it leaves. -/
def withMore {α : Type} (more : Bytes) (answer : Except FrameError (Option (α × Bytes))) :
    Except FrameError (Option (α × Bytes)) :=
  answer.map (Option.map fun (a, rest) => (a, rest ++ more))

@[simp]
theorem withMore_error {α : Type} (more : Bytes) (e : FrameError) :
    withMore more (.error e : Except FrameError (Option (α × Bytes))) = .error e :=
  rfl

@[simp]
theorem withMore_some {α : Type} (more : Bytes) (a : α) (rest : Bytes) :
    withMore more (.ok (some (a, rest))) = .ok (some (a, rest ++ more)) :=
  rfl

section More

variable {o : DecodeOptions} {head : FrameHead} {bs rest : Bytes} {n : Nat} {f : Frame}

theorem splitExact?_append {front : Bytes} (h : splitExact? n bs = some (front, rest)) (more : Bytes) :
    splitExact? n (bs ++ more) = some (front, rest ++ more) := by
  obtain ⟨rfl, hLength⟩ := append_of_splitExact? h
  subst hLength
  simp [splitExact?]

namespace FrameHead

theorem payloadLength_append (h : head.payloadLength bs ≠ .ok none) (more : Bytes) :
    head.payloadLength (bs ++ more) = withMore more (head.payloadLength bs) := by
  unfold payloadLength at h ⊢
  by_cases hShort : head.shortLength < 126
  · simp only [if_pos hShort, withMore_some]
  simp only [if_neg hShort] at h ⊢
  by_cases hMedium : head.shortLength = 126
  · simp only [if_pos hMedium] at h ⊢
    cases hSplit : splitExact? 2 bs with
    | none => simp [hSplit] at h
    | some part => simp [splitExact?_append hSplit more]
  · simp only [if_neg hMedium] at h ⊢
    cases hSplit : splitExact? 8 bs with
    | none => simp [hSplit] at h
    | some part =>
      simp only [splitExact?_append hSplit more]
      split <;> rfl

theorem takeMask?_append {mask : Option Mask} (h : head.takeMask? bs = some (mask, rest)) (more : Bytes) :
    head.takeMask? (bs ++ more) = some (mask, rest ++ more) := by
  unfold takeMask? at h ⊢
  cases hMasked : head.masked with
  | false =>
    simp only [hMasked, Option.some.injEq, Prod.mk.injEq] at h
    obtain ⟨rfl, rfl⟩ := h
    rfl
  | true =>
    simp only [hMasked] at h
    split at h
    · contradiction
    · simp only [Option.some.injEq, Prod.mk.injEq] at h
      obtain ⟨rfl, rfl⟩ := h
      rfl
    · simp at h

theorem body?_append (h : head.body? n bs = some (f, rest)) (more : Bytes) :
    head.body? n (bs ++ more) = some (f, rest ++ more) := by
  simp only [body?, Option.bind_eq_bind, Option.bind_eq_some_iff, Option.pure_def, Option.some.injEq,
    Prod.mk.injEq] at h ⊢
  obtain ⟨⟨mask, bs₁⟩, hMask, ⟨payload, bs₂⟩, hPayload, hFrame, rfl⟩ := h
  exact ⟨_, takeMask?_append hMask more, _, splitExact?_append hPayload more, hFrame, rfl⟩

end FrameHead

/-- Once there are bytes enough for an answer, be it a frame or an error, more bytes do not change it. -/
theorem Frame.decode_append (h : decode o bs ≠ .ok none) (more : Bytes) :
    decode o (bs ++ more) = withMore more (decode o bs) := by
  match bs with
  | [] | [_] => exact absurd rfl h
  | b₀ :: b₁ :: bs =>
    simp only [decode, List.cons_append] at h ⊢
    cases hHead : FrameHead.decode o b₀ b₁ with
    | error e => rfl
    | ok head =>
      simp only [hHead] at h ⊢
      have hMore (hSettled : head.payloadLength bs ≠ .ok none) := FrameHead.payloadLength_append hSettled more
      cases hLength : head.payloadLength bs with
      | error e => simp [hMore (by simp [hLength]), hLength]
      | ok length =>
        cases length with
        | none => simp [hLength] at h
        | some length =>
          obtain ⟨n, rest⟩ := length
          simp only [hMore (by simp [hLength]), hLength, withMore_some] at h ⊢
          by_cases hSize : o.maxFrameSize < n
          · simp only [if_pos hSize, withMore_error]
          · simp only [if_neg hSize] at h ⊢
            cases hBody : head.body? n rest with
            | none => simp [hBody] at h
            | some part => rw [FrameHead.body?_append hBody more, withMore_some]

end More

end HttpServer
