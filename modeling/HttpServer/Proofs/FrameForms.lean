import HttpServer.Proofs.FrameReader

/-!
# What a reader of frames takes off its buffer

A frame comes off a buffer exactly if one of its wire forms is at the front and the reader permits the frame
(`Frame.decode_eq_some_iff_wire`).  A wire form that was read need not be the one that is written: the writer uses the
shortest form for a length, the reader takes any that is able to hold it.

Where no frame comes off, all bytes stay in the buffer.  That the reader waits for more of them says that there are few:
no more than the longest head and the longest payload that it permits (`Frame.length_of_decode_wait`).
-/

namespace HttpServer

namespace LengthForm

variable {form : LengthForm} {n : Nat}

/-- The form holds the length, and no form with a shorter field does. -/
structure IsShortest (form : LengthForm) (n : Nat) : Prop where
  holds : form.Holds n
  least : ∀ other : LengthForm, other.Holds n → (form.field n).length ≤ (other.field n).length

/-- The fields tell the forms apart by how long they are. -/
theorem eq_of_length_field {other : LengthForm} (h : (form.field n).length = (other.field n).length) :
    form = other := by
  cases form <;> cases other <;> simp [field] at h ⊢

theorem isShortest_shortest (h : n < UInt64.size) : (shortest n).IsShortest n := by
  refine ⟨holds_shortest h, fun other hOther => ?_⟩
  unfold shortest
  split
  · simp [field]
  · split
    · cases other with
      | bits7 => contradiction
      | bits16 | bits64 => simp [field]
    · cases other with
      | bits7 | bits16 => contradiction
      | bits64 => simp [field]

theorem isShortest_iff (h : n < UInt64.size) : form.IsShortest n ↔ form = shortest n := by
  have hShortest := isShortest_shortest h
  constructor
  · intro hForm
    exact eq_of_length_field (Nat.le_antisymm (hForm.least _ hShortest.holds) (hShortest.least _ hForm.holds))
  · rintro rfl
    exact hShortest

end LengthForm

namespace FrameHead

variable {o : DecodeOptions} {head : FrameHead} {bs rest : Bytes} {n : Nat} {f : Frame}

/-! ## The bytes behind a head -/

/-- A first byte with the reserved bits clear holds the flags, an opcode, and nothing else. -/
theorem flags_of_ofByte? {b : UInt8} {opcode : Opcode} (hReserved : b &&& 0x30 = 0)
    (hOpcode : Opcode.ofByte? b = some opcode) :
    b = (if b &&& 0x80 ≠ 0 then 0x80 else 0) ||| (if b &&& 0x40 ≠ 0 then 0x40 else 0) ||| opcode.code := by
  have hAll : ∀ n : Fin 256, UInt8.ofNat n &&& 0x30 = 0 → ∀ opcode ∈ Opcode.ofByte? (UInt8.ofNat n),
      UInt8.ofNat n = (if UInt8.ofNat n &&& 0x80 ≠ 0 then 0x80 else 0) |||
        (if UInt8.ofNat n &&& 0x40 ≠ 0 then 0x40 else 0) ||| opcode.code := by
    decide +kernel
  have hByte := hAll ⟨b.toNat, b.toNat_lt⟩
  simp only [UInt8.ofNat_toNat] at hByte
  exact hByte hReserved opcode hOpcode

/-- A second byte holds the mask bit and seven bits of length. -/
theorem maskBit_of_byte (b : UInt8) :
    b = (if b &&& 0x80 ≠ 0 then 0x80 else 0) ||| UInt8.ofNat (b &&& 0x7F).toNat := by
  have hAll : ∀ n : Fin 256, UInt8.ofNat n =
      (if UInt8.ofNat n &&& 0x80 ≠ 0 then 0x80 else 0) ||| UInt8.ofNat (UInt8.ofNat n &&& 0x7F).toNat := by
    decide +kernel
  simpa only [UInt8.ofNat_toNat] using hAll ⟨b.toNat, b.toNat_lt⟩

/-- The two bytes of a head that was read, said by what was read. -/
theorem bytes_of_decode {b₀ b₁ : UInt8} (h : decode o b₀ b₁ = .ok head) :
    b₀ = (if head.fin then 0x80 else 0) ||| (if head.rsv1 then 0x40 else 0) ||| head.opcode.code ∧
      b₁ = (if head.masked then 0x80 else 0) ||| UInt8.ofNat head.shortLength ∧ head.shortLength < 128 := by
  unfold decode at h
  split at h
  · contradiction
  rename_i hReserved
  cases hOpcode : Opcode.ofByte? b₀ with
  | none => simp [hOpcode] at h
  | some opcode =>
    simp only [hOpcode] at h
    split at h
    · contradiction
    split at h
    · contradiction
    split at h
    · contradiction
    split at h
    · contradiction
    cases h
    have hLow : (b₁ &&& 0x7F).toNat < 128 := by
      rw [UInt8.toNat_and]
      exact Nat.lt_of_le_of_lt Nat.and_le_right (by decide)
    refine ⟨?_, ?_, hLow⟩
    · simpa using flags_of_ofByte? (Decidable.not_not.mp hReserved) hOpcode
    · simpa using maskBit_of_byte b₁

/-- The bytes of a length are one of its forms. -/
theorem exists_form_of_payloadLength (hShort : head.shortLength < 128)
    (h : head.payloadLength bs = .ok (some (n, rest))) :
    ∃ form : LengthForm, form.Holds n ∧ head.shortLength = form.announced n ∧ bs = form.field n ++ rest := by
  unfold payloadLength at h
  by_cases hSmall : head.shortLength < 126
  · rw [if_pos hSmall] at h
    cases h
    exact ⟨.bits7, hSmall, rfl, rfl⟩
  rw [if_neg hSmall] at h
  by_cases hMedium : head.shortLength = 126
  · simp only [if_pos hMedium, Except.ok.injEq, Option.map_eq_some_iff, Prod.mk.injEq] at h
    obtain ⟨⟨field, left⟩, hSplit, rfl, rfl⟩ := h
    obtain ⟨rfl, hField⟩ := append_of_splitExact? hSplit
    exact ⟨.bits16, ofBigEndian_lt hField, hMedium, by rw [LengthForm.field, bigEndian_ofBigEndian hField]⟩
  · rw [if_neg hMedium] at h
    split at h
    · simp at h
    rename_i field left hSplit
    split at h
    · contradiction
    cases h
    obtain ⟨rfl, hField⟩ := append_of_splitExact? hSplit
    have hLong : head.shortLength = 127 := by omega
    exact ⟨.bits64, ofBigEndian_lt hField, hLong, by rw [LengthForm.field, bigEndian_ofBigEndian hField]⟩

/-- Behind the length stand the mask and the payload under it. -/
theorem eq_of_body? (h : head.body? n bs = some (f, rest)) : bs = f.maskBytes ++ f.wirePayload ++ rest := by
  simp only [body?, Option.bind_eq_bind, Option.bind_eq_some_iff, Option.pure_def, Option.some.injEq,
    Prod.mk.injEq] at h
  obtain ⟨⟨mask, bs₁⟩, hMask, ⟨payload, bs₂⟩, hPayload, rfl, rfl⟩ := h
  obtain ⟨rfl, -⟩ := append_of_splitExact? hPayload
  unfold takeMask? at hMask
  split at hMask
  · cases hMask
    simp [Frame.maskBytes, Frame.wirePayload]
  · cases hMask
    simp [Frame.maskBytes, Frame.wirePayload, Mask.bytes]
  · contradiction

/-! ## Waiting -/

theorem length_of_splitExact?_eq_none (h : splitExact? n bs = none) : bs.length < n := by
  unfold splitExact? at h
  split at h
  · contradiction
  · omega

theorem length_of_payloadLength_wait (h : head.payloadLength bs = .ok none) : bs.length < 8 := by
  unfold payloadLength at h
  split at h
  · simp at h
  split at h
  · have hShort := length_of_splitExact?_eq_none (Option.map_eq_none_iff.mp (Except.ok.inj h))
    omega
  split at h
  · rename_i hSplit
    exact length_of_splitExact?_eq_none hSplit
  · split at h <;> simp at h

theorem length_of_payloadLength (hShort : head.shortLength < 128) (h : head.payloadLength bs = .ok (some (n, rest))) :
    bs.length ≤ 8 + rest.length := by
  obtain ⟨form, -, -, rfl⟩ := exists_form_of_payloadLength hShort h
  cases form with
  | bits7 | bits16 | bits64 => simp [LengthForm.field]

theorem length_of_takeMask?_eq_none (h : head.takeMask? bs = none) : bs.length < 4 := by
  match bs with
  | [] | [_] | [_, _] | [_, _, _] => simp
  | a :: b :: c :: d :: left =>
    -- With four bytes there is a mask, or none is asked for.
    cases hMasked : head.masked <;> simp [takeMask?, hMasked] at h

theorem length_of_takeMask? {mask : Option Mask} (h : head.takeMask? bs = some (mask, rest)) :
    bs.length ≤ 4 + rest.length := by
  unfold takeMask? at h
  split at h
  · cases h
    omega
  · cases h
    simp only [List.length_cons]
    omega
  · contradiction

theorem length_of_body?_eq_none (h : head.body? n bs = none) : bs.length < 4 + n := by
  unfold body? at h
  cases hMask : head.takeMask? bs with
  | none =>
    have hFew := length_of_takeMask?_eq_none hMask
    omega
  | some part =>
    obtain ⟨mask, left⟩ := part
    have hLeft := length_of_takeMask? hMask
    have hPayload : splitExact? n left = none := by
      cases hSplit : splitExact? n left with
      | none => rfl
      | some part => simp [hMask, hSplit] at h
    have hShort := length_of_splitExact?_eq_none hPayload
    omega

end FrameHead

namespace Frame

variable {o : DecodeOptions} {f : Frame} {buf rest : Bytes} {form : LengthForm}

/-- A reader that waits for more bytes has not yet got the longest frame that it permits. -/
theorem length_of_decode_wait (h : decode o buf = .ok none) : buf.length < 14 + o.maxFrameSize := by
  unfold decode at h
  split at h
  · rename_i b₀ b₁ bs
    split at h
    · contradiction
    rename_i head hHead
    obtain ⟨-, -, hShort⟩ := FrameHead.bytes_of_decode hHead
    split at h
    · contradiction
    · rename_i hLength
      have hWait := FrameHead.length_of_payloadLength_wait hLength
      simp only [List.length_cons]
      omega
    · rename_i n left hLength
      split at h
      · contradiction
      rename_i hSize
      have hField := FrameHead.length_of_payloadLength hShort hLength
      have hBody := FrameHead.length_of_body?_eq_none (Except.ok.inj h)
      simp only [List.length_cons]
      omega
  · match buf with
    | [] | [_] => exact Nat.lt_of_lt_of_le (by simp) (Nat.le_add_right 14 _)
    | b₀ :: b₁ :: bs =>
      rename_i hFew
      exact absurd rfl (hFew b₀ b₁ bs)

/-! ## Whole frames -/

/-- What was read stood at the front of the buffer, in a form that the frame may have. -/
theorem exists_wire_of_decode (h : decode o buf = .ok (some (f, rest))) :
    ∃ form, f.MayUse form ∧ buf = f.wire form ++ rest := by
  have hPermitted := permitted_of_decode h
  unfold decode at h
  split at h
  case h_2 => simp at h
  rename_i b₀ b₁ bs
  cases hHead : FrameHead.decode o b₀ b₁ with
  | error e => simp [hHead] at h
  | ok head =>
    simp only [hHead] at h
    split at h
    · contradiction
    · simp at h
    rename_i n left hLength
    split at h
    · contradiction
    obtain ⟨hFirst, hSecond, hShort⟩ := FrameHead.bytes_of_decode hHead
    obtain ⟨form, hHolds, hAnnounced, rfl⟩ := FrameHead.exists_form_of_payloadLength hShort hLength
    obtain ⟨hFin, hRsv, hOpcode, hMask, rfl⟩ := FrameHead.of_body? (Except.ok.inj h)
    obtain rfl := FrameHead.eq_of_body? (Except.ok.inj h)
    refine ⟨form, ⟨hHolds, ?_⟩, ?_⟩
    · -- The second byte of a control frame announces no field.
      intro hControl
      have hLow := ((FrameHead.checked_of_decode hHead).control (hOpcode ▸ hControl)).2
      rw [hAnnounced] at hLow
      cases form with
      | bits7 => rfl
      | bits16 | bits64 => simp [LengthForm.announced] at hLow
    · have hFirstByte : b₀ = f.firstByte := by rw [hFirst, firstByte, hFin, hRsv, hOpcode]
      have hSecondByte : b₁ = f.maskBit ||| UInt8.ofNat (form.announced f.payload.length) := by
        rw [hSecond, maskBit, hMask, hAnnounced]
      rw [hFirstByte, hSecondByte]
      simp [wire]

/-- A frame has a different number of bytes in each form. -/
theorem wire_inj {other : LengthForm} : f.wire form = f.wire other ↔ form = other := by
  constructor
  · intro h
    have hLength := congrArg List.length h
    simp only [wire, List.length_cons, List.length_append] at hLength
    exact LengthForm.eq_of_length_field (n := f.payload.length) (by omega)
  · rintro rfl
    rfl

theorem encode_eq_wire_iff (hWidth : f.payload.length < UInt64.size) :
    f.encode = f.wire form ↔ form.IsShortest f.payload.length := by
  rw [encode_eq_wire, wire_inj, LengthForm.isShortest_iff hWidth, eq_comm]

/-- A frame comes off a buffer exactly if it is permitted and one of its forms is at the front. -/
theorem decode_eq_some_iff_wire :
    decode o buf = .ok (some (f, rest)) ↔ f.Permitted o ∧ ∃ form, f.MayUse form ∧ buf = f.wire form ++ rest := by
  constructor
  · intro h
    exact ⟨permitted_of_decode h, exists_wire_of_decode h⟩
  · rintro ⟨hPermitted, form, hForm, rfl⟩
    exact decode_wire hPermitted hForm rest

/-- **What comes off a buffer.**  A frame comes off a buffer and leaves the rest exactly if the reader permits it and
the buffer is one of its forms followed by the rest.  Written again, such a frame is read again, and it has the bytes
that it had before exactly if its length was in the shortest form.  As long as no frame comes off, be it that bytes
are missing or that they are wrong, the buffer stays as it is behind each call, and behind a reader that calls until
there is no frame any more; and bytes are missing only from a buffer that has fewer of them than the longest frame that
is permitted. -/
theorem decode_takes_wire_forms (o : DecodeOptions) (buf : Bytes) :
    (∀ f rest, decode o buf = .ok (some (f, rest)) ↔
        f.Permitted o ∧ ∃ form, f.MayUse form ∧ buf = f.wire form ++ rest) ∧
      (∀ f rest form, decode o buf = .ok (some (f, rest)) → f.MayUse form → buf = f.wire form ++ rest →
        (∀ more, decode o (f.encode ++ more) = .ok (some (f, more))) ∧
          (f.encode = f.wire form ↔ form.IsShortest f.payload.length)) ∧
      (∀ f rest, takeFront o buf = (.ok (some f), rest) ↔ decode o buf = .ok (some (f, rest))) ∧
      (decode o buf = .ok none → takeFront o buf = (.ok none, buf) ∧ decodeAll o buf = ([], none, buf) ∧
        buf.length < 14 + o.maxFrameSize) ∧
      ∀ e, decode o buf = .error e → takeFront o buf = (.error e, buf) ∧ decodeAll o buf = ([], some e, buf) := by
  refine ⟨?frame, ?again, ?taken, ?wait, ?error⟩
  case frame =>
    intro f rest
    exact decode_eq_some_iff_wire
  case again =>
    intro f rest form hDecode hForm hWire
    have hPermitted := permitted_of_decode hDecode
    have hWidth : f.payload.length < UInt64.size := Nat.lt_of_lt_of_le hPermitted.width (by decide)
    exact ⟨decode_encode hPermitted, encode_eq_wire_iff hWidth⟩
  case taken =>
    intro f rest
    exact takeFront_eq_frame_iff
  case wait =>
    intro hDecode
    exact ⟨takeFront_eq_none_iff.mpr ⟨hDecode, rfl⟩, decodeAll_of_wait hDecode, length_of_decode_wait hDecode⟩
  case error =>
    intro e hDecode
    exact ⟨takeFront_eq_error_iff.mpr ⟨hDecode, rfl⟩, decodeAll_of_error hDecode⟩

/-- A text of two bytes whose length is written with 64 bits, the first five bytes of it, and a head with a reserved
bit. -/
theorem decode_takes_wide_text :
    let o : DecodeOptions := {}
    let f : Frame := { opcode := .text, mask := some ⟨0x37, 0xFA, 0x21, 0x3D⟩, payload := [0x48, 0x69] }
    let wide := f.wire .bits64
    wide = [0x81, 0xFF, 0, 0, 0, 0, 0, 0, 0, 2, 0x37, 0xFA, 0x21, 0x3D, 0x7F, 0x93] ∧
      decode o (wide ++ [7]) = .ok (some (f, [7])) ∧ f.MayUse .bits64 ∧
      decode o (f.encode ++ [9]) = .ok (some (f, [9])) ∧ f.encode ≠ wide ∧
      takeFront o (wide ++ [7]) = (.ok (some f), [7]) ∧ decode o [0x81, 0xFF, 0, 0, 0] = .ok none ∧
      takeFront o [0x81, 0xFF, 0, 0, 0] = (.ok none, [0x81, 0xFF, 0, 0, 0]) ∧
      decodeAll o [0x81, 0xFF, 0, 0, 0] = ([], none, [0x81, 0xFF, 0, 0, 0]) ∧
      decode o [0xB1, 0x80] = .error .reservedBits ∧ takeFront o [0xB1, 0x80] = (.error .reservedBits, [0xB1, 0x80]) ∧
      decodeAll o [0xB1, 0x80] = ([], some .reservedBits, [0xB1, 0x80]) := by
  intro o f wide
  have hPermitted : f.Permitted o := ⟨by decide, by decide, by decide, by decide, by decide⟩
  have hForm : f.MayUse .bits64 := ⟨by decide, by decide⟩
  have hRead := decode_wire hPermitted hForm [7]
  have hWait : decode o [0x81, 0xFF, 0, 0, 0] = .ok none := rfl
  have hRefused : decode o [0xB1, 0x80] = .error .reservedBits := rfl
  obtain ⟨-, hAgain, hTaken, -, -⟩ := decode_takes_wire_forms o (wide ++ [7])
  obtain ⟨-, -, -, hShort, -⟩ := decode_takes_wire_forms o [0x81, 0xFF, 0, 0, 0]
  obtain ⟨-, -, -, -, hError⟩ := decode_takes_wire_forms o [0xB1, 0x80]
  obtain ⟨hEncode, hShortest⟩ := hAgain f [7] .bits64 hRead hForm rfl
  -- Seven bits would have been enough.
  have hLonger : ¬LengthForm.IsShortest .bits64 f.payload.length := by
    intro hLeast
    exact absurd (hLeast.least .bits7 (by decide)) (by decide)
  have hOther : f.encode ≠ wide := fun hSame => hLonger (hShortest.mp hSame)
  obtain ⟨hKept, hNone, -⟩ := hShort hWait
  exact ⟨by decide, hRead, hForm, hEncode [9], hOther, (hTaken f [7]).mpr hRead, hWait, hKept, hNone, hRefused,
    hError _ hRefused⟩

end Frame
end HttpServer
