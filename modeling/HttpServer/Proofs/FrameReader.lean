import HttpServer.Proofs.FrameCodec

/-!
# What a reader of frames accepts

`FrameCodec` has that a permitted frame is read back.  The reverse is here: a reader never gives out a frame that it
does not permit (`Frame.permitted_of_decode`), so a frame is read back exactly when it is permitted.  The same holds of
many frames in a row (`Frame.decodeAll_encode_iff`).

A reader sees the bytes in pieces.  It appends a piece to its buffer, takes out the frames that are whole, and goes on
with the next piece unless there was an error (`Frame.takeAll`).  What it has got when it stops is what it would have
got out of all the bytes at once (`Frame.decodeAll_eq_takeAll`), and so it does not depend on the pieces.
-/

namespace HttpServer

/-! ## One frame -/

namespace FrameHead

variable {o : DecodeOptions} {head : FrameHead} {bs rest : Bytes} {n : Nat} {f : Frame}

/-- What the first two bytes of a frame are checked for. -/
structure Checked (o : DecodeOptions) (head : FrameHead) : Prop where
  compressed : head.rsv1 = true → o.allowCompressed = true ∧ head.opcode.beginsMessage = true
  masked : o.requireMask = true → head.masked = true
  control : head.opcode.isControl = true → head.fin = true ∧ head.shortLength ≤ 125

theorem checked_of_decode {b₀ b₁ : UInt8} (h : decode o b₀ b₁ = .ok head) : head.Checked o := by
  unfold decode at h
  split at h
  · contradiction
  cases hOpcode : Opcode.ofByte? b₀ with
  | none => simp [hOpcode] at h
  | some opcode =>
    simp only [hOpcode] at h
    split at h
    · contradiction
    split at h
    · contradiction
    split at h
    · contradiction
    split at h
    · contradiction
    rename_i hCompressed hMasked hWhole hShort
    cases h
    constructor
    · intro hRsv
      dsimp only at hRsv
      simpa only [hRsv, Bool.true_and, Bool.not_eq_true, Bool.not_eq_false', Bool.and_eq_true] using hCompressed
    · intro hRequire
      simpa [hRequire] using hMasked
    · intro hControl
      exact ⟨by simpa [hControl] using hWhole, by simpa [hControl] using hShort⟩

/-- A length that was read has at most 63 bits, and a short one is the length itself. -/
theorem of_payloadLength (h : head.payloadLength bs = .ok (some (n, rest))) :
    n < UInt64.size / 2 ∧ (head.shortLength < 126 → n = head.shortLength) := by
  unfold payloadLength at h
  by_cases hShort : head.shortLength < 126
  · rw [if_pos hShort] at h
    cases h
    exact ⟨Nat.lt_trans hShort (by decide), fun _ => rfl⟩
  rw [if_neg hShort] at h
  refine ⟨?_, fun h => absurd h hShort⟩
  by_cases hMedium : head.shortLength = 126
  · simp only [if_pos hMedium, Except.ok.injEq, Option.map_eq_some_iff, Prod.mk.injEq] at h
    obtain ⟨⟨field, left⟩, hSplit, rfl, -⟩ := h
    exact Nat.lt_trans (ofBigEndian_lt (append_of_splitExact? hSplit).2) (by decide)
  · rw [if_neg hMedium] at h
    split at h
    · simp at h
    split at h
    · contradiction
    rename_i hWidth
    cases h
    exact Nat.not_le.mp hWidth

theorem of_body? (h : head.body? n bs = some (f, rest)) :
    f.fin = head.fin ∧ f.rsv1 = head.rsv1 ∧ f.opcode = head.opcode ∧ f.mask.isSome = head.masked ∧
      f.payload.length = n := by
  simp only [body?, Option.bind_eq_bind, Option.bind_eq_some_iff, Option.pure_def, Option.some.injEq,
    Prod.mk.injEq] at h
  obtain ⟨⟨mask, bs₁⟩, hMask, ⟨payload, bs₂⟩, hPayload, rfl, -⟩ := h
  have hLength := (append_of_splitExact? hPayload).2
  have hMasked : mask.isSome = head.masked := by
    unfold takeMask? at hMask
    split at hMask
    · cases hMask
      symm
      assumption
    · cases hMask
      symm
      assumption
    · contradiction
  refine ⟨rfl, rfl, rfl, hMasked, ?_⟩
  cases mask with
  | none => exact hLength
  | some mask => exact (Mask.length_apply _ _).trans hLength

end FrameHead

namespace Frame

variable {o : DecodeOptions} {f : Frame} {buf rest : Bytes}

/-- Only frames that are permitted are read. -/
theorem permitted_of_decode (h : decode o buf = .ok (some (f, rest))) : f.Permitted o := by
  unfold decode at h
  split at h
  case h_2 => simp at h
  rename_i b₀ b₁ bs
  cases hHead : FrameHead.decode o b₀ b₁ with
  | error e => simp [hHead] at h
  | ok head =>
    simp only [hHead] at h
    split at h
    · contradiction
    · simp at h
    rename_i n left hLength
    split at h
    · contradiction
    rename_i hSize
    obtain ⟨hCompressed, hMasked, hControl⟩ := FrameHead.checked_of_decode hHead
    obtain ⟨hWidth, hShort⟩ := FrameHead.of_payloadLength hLength
    obtain ⟨hFin, hRsv, hOpcode, hMask, hPayload⟩ := FrameHead.of_body? (Except.ok.inj h)
    rw [← hRsv, ← hOpcode] at hCompressed
    rw [← hMask] at hMasked
    rw [← hFin, ← hOpcode] at hControl
    refine ⟨?_, ?_, ?_, hCompressed, hMasked⟩
    · rw [hPayload]
      exact Nat.not_lt.mp hSize
    · rw [hPayload]
      exact hWidth
    · intro hIsControl
      obtain ⟨hWhole, hLow⟩ := hControl hIsControl
      have hSame := hShort (by omega)
      exact ⟨hWhole, by omega⟩

/-- **Frames are read back.**  A frame is read back as it was written, with everything behind it left alone, exactly
when the reader permits it. -/
theorem decode_encode_iff (o : DecodeOptions) (f : Frame) (rest : Bytes) :
    decode o (f.encode ++ rest) = .ok (some (f, rest)) ↔ f.Permitted o := by
  constructor
  · intro h
    exact permitted_of_decode h
  · intro h
    exact decode_encode h rest

/-! ## Frames in a row -/

/-- Taking these frames off the front of some bytes, one after the other, leaves the rest. -/
inductive Reads (o : DecodeOptions) : Bytes → List Frame → Bytes → Prop
  | nil (bs : Bytes) : Reads o bs [] bs
  | cons {bs mid rest : Bytes} {f : Frame} {fs : List Frame} (first : decode o bs = .ok (some (f, mid)))
      (others : Reads o mid fs rest) : Reads o bs (f :: fs) rest

section Row

variable {bs mid left more : Bytes} {fs gs : List Frame} {e : FrameError}

theorem Reads.append (h : Reads o bs fs mid) (h' : Reads o mid gs rest) : Reads o bs (fs ++ gs) rest := by
  induction h with
  | nil => exact h'
  | cons hFirst _ ih => exact .cons hFirst (ih h')

theorem Reads.permitted (h : Reads o bs fs rest) : ∀ f ∈ fs, f.Permitted o := by
  induction h with
  | nil => simp
  | cons hFirst _ ih =>
    intro f hf
    rcases List.mem_cons.mp hf with rfl | hf
    · exact permitted_of_decode hFirst
    · exact ih f hf

theorem decodeAll_of_frame (h : decode o bs = .ok (some (f, rest))) :
    decodeAll o bs = (f :: (decodeAll o rest).1, (decodeAll o rest).2) := by
  rw [decodeAll]
  split <;> simp_all

theorem decodeAll_of_error (h : decode o bs = .error e) : decodeAll o bs = ([], some e, bs) := by
  rw [decodeAll]
  split <;> simp_all

theorem decodeAll_of_wait (h : decode o bs = .ok none) : decodeAll o bs = ([], none, bs) := by
  rw [decodeAll]
  split <;> simp_all

theorem reads_decodeAll (o : DecodeOptions) (bs : Bytes) : Reads o bs (decodeAll o bs).1 (decodeAll o bs).2.2 := by
  fun_induction decodeAll o bs with
  | case1 bs e left hTake =>
    obtain ⟨-, rfl⟩ := takeFront_eq_error_iff.mp hTake
    exact .nil _
  | case2 bs left hTake =>
    obtain ⟨-, rfl⟩ := takeFront_eq_none_iff.mp hTake
    exact .nil _
  | case3 bs f rest hTake frames stop left hRest ih =>
    rw [hRest] at ih
    exact .cons (takeFront_eq_frame_iff.mp hTake) ih

/-- Frames are read back in a row exactly when each of them is permitted. -/
theorem decodeAll_encode_iff (o : DecodeOptions) (fs : List Frame) :
    decodeAll o (fs.flatMap encode) = (fs, none, []) ↔ ∀ f ∈ fs, f.Permitted o := by
  constructor
  · intro h
    have hReads := reads_decodeAll o (fs.flatMap encode)
    rw [h] at hReads
    exact hReads.permitted
  · intro h
    induction fs with
    | nil => exact decodeAll_of_wait rfl
    | cons f fs ih =>
      rw [List.flatMap_cons, decodeAll_of_frame (decode_encode (h f (by simp)) _), ih fun g hg => h g (by simp [hg])]

/-! ## In pieces -/

theorem decode_append_of_error (h : decode o bs = .error e) (more : Bytes) : decode o (bs ++ more) = .error e := by
  have hSettled : decode o bs ≠ .ok none := by simp [h]
  rw [decode_append hSettled, h, withMore_error]

theorem decode_append_of_frame (h : decode o bs = .ok (some (f, rest))) (more : Bytes) :
    decode o (bs ++ more) = .ok (some (f, rest ++ more)) := by
  have hSettled : decode o bs ≠ .ok none := by simp [h]
  rw [decode_append hSettled, h, withMore_some]

/-- Nothing changes an error, or the frames in front of it. -/
theorem decodeAll_append_of_error (h : decodeAll o bs = (fs, some e, left)) (more : Bytes) :
    decodeAll o (bs ++ more) = (fs, some e, left ++ more) := by
  fun_induction decodeAll o bs generalizing fs with
  | case1 bs e' left' hTake =>
    obtain ⟨hDecode, rfl⟩ := takeFront_eq_error_iff.mp hTake
    cases h
    exact decodeAll_of_error (decode_append_of_error hDecode more)
  | case2 => simp at h
  | case3 bs f rest hTake frames stop left' hRest ih =>
    cases h
    rw [decodeAll_of_frame (decode_append_of_frame (takeFront_eq_frame_iff.mp hTake) more), ih hRest]

/-- More bytes go on where those before them have stopped. -/
theorem decodeAll_append (h : decodeAll o bs = (fs, none, left)) (more : Bytes) :
    decodeAll o (bs ++ more) = (fs ++ (decodeAll o (left ++ more)).1, (decodeAll o (left ++ more)).2) := by
  fun_induction decodeAll o bs generalizing fs with
  | case1 => simp at h
  | case2 bs left' hTake =>
    obtain ⟨-, rfl⟩ := takeFront_eq_none_iff.mp hTake
    cases h
    rfl
  | case3 bs f rest hTake frames stop left' hRest ih =>
    cases h
    rw [decodeAll_of_frame (decode_append_of_frame (takeFront_eq_frame_iff.mp hTake) more), ih hRest]
    rfl

/-- The bytes that are left without an error hold no whole frame. -/
theorem decode_of_decodeAll (h : decodeAll o bs = (fs, none, left)) : decode o left = .ok none := by
  fun_induction decodeAll o bs generalizing fs with
  | case1 => simp at h
  | case2 bs left' hTake =>
    obtain ⟨hDecode, rfl⟩ := takeFront_eq_none_iff.mp hTake
    cases h
    exact hDecode
  | case3 bs f rest hTake frames stop left' hRest ih =>
    cases h
    exact ih hRest

end Row

/-- What a reader has got when it stops. -/
structure Taken where
  frames : List Frame
  /-- The error at which it stopped, if that was why. -/
  stop : Option FrameError
  buffered : Bytes
  /-- The pieces that were not appended, because there was an error before. -/
  unread : List Bytes
  deriving DecidableEq, Repr

/-- Append one piece after the other to the buffer, each time taking out all frames that are whole, until there is an
error. -/
def takeAll (o : DecodeOptions) (buf : Bytes) : List Bytes → Taken
  | [] => { frames := [], stop := none, buffered := buf, unread := [] }
  | chunk :: chunks =>
    match decodeAll o (buf ++ chunk) with
    | (frames, some e, left) => { frames, stop := some e, buffered := left, unread := chunks }
    | (frames, none, left) =>
      let later := takeAll o left chunks
      { later with frames := frames ++ later.frames }

/-- In pieces a reader gets what it gets out of all the bytes at once.  The induction is on the pieces; the buffer in
front of them holds no whole frame. -/
theorem decodeAll_eq_takeAll (h : decode o buf = .ok none) (chunks : List Bytes) :
    decodeAll o (buf ++ chunks.flatten) =
      ((takeAll o buf chunks).frames, (takeAll o buf chunks).stop,
        (takeAll o buf chunks).buffered ++ (takeAll o buf chunks).unread.flatten) := by
  induction chunks generalizing buf with
  | nil => simpa [takeAll] using decodeAll_of_wait h
  | cons chunk chunks ih =>
    rw [List.flatten_cons, ← List.append_assoc]
    rcases hChunk : decodeAll o (buf ++ chunk) with ⟨frames, stop, left⟩
    cases stop with
    | some e =>
      rw [decodeAll_append_of_error hChunk]
      simp only [takeAll, hChunk]
    | none =>
      rw [decodeAll_append hChunk, ih (decode_of_decodeAll hChunk)]
      simp only [takeAll, hChunk]

/-- Without an error all pieces are appended. -/
theorem unread_takeAll {chunks : List Bytes} (h : (takeAll o buf chunks).stop = none) :
    (takeAll o buf chunks).unread = [] := by
  induction chunks generalizing buf with
  | nil => rfl
  | cons chunk chunks ih =>
    rcases hChunk : decodeAll o (buf ++ chunk) with ⟨frames, stop, left⟩
    cases stop with
    | some e => simp [takeAll, hChunk] at h
    | none =>
      simp only [takeAll, hChunk] at h ⊢
      exact ih h

/-- **Frames do not depend on how the bytes are cut.**  Two ways of cutting the same bytes into pieces give the same
frames and the same error, if there is one.  Behind them the same bytes are left, those in the buffer followed by those
that were not appended because of the error; so the buffers are the same if everything was appended, and in particular
if there was no error.  A frame or an error that was found in a buffer is found in every longer one, and what is behind
stays behind. -/
theorem takeAll_eq_of_flatten_eq (o : DecodeOptions) (cs ds : List Bytes) (h : cs.flatten = ds.flatten) :
    (takeAll o [] cs).frames = (takeAll o [] ds).frames ∧ (takeAll o [] cs).stop = (takeAll o [] ds).stop ∧
      (takeAll o [] cs).buffered ++ (takeAll o [] cs).unread.flatten =
        (takeAll o [] ds).buffered ++ (takeAll o [] ds).unread.flatten ∧
      ((takeAll o [] cs).unread = [] → (takeAll o [] ds).unread = [] →
        (takeAll o [] cs).buffered = (takeAll o [] ds).buffered) ∧
      ((takeAll o [] cs).stop = none → (takeAll o [] cs).buffered = (takeAll o [] ds).buffered) ∧
      ∀ buf more, decode o buf ≠ .ok none → decode o (buf ++ more) = withMore more (decode o buf) := by
  have hEmpty : decode o [] = .ok none := rfl
  have hAll := decodeAll_eq_takeAll hEmpty cs
  rw [h, decodeAll_eq_takeAll hEmpty ds] at hAll
  simp only [Prod.mk.injEq] at hAll
  obtain ⟨hFrames, hStop, hLeft⟩ := hAll
  have hAppended (hcs : (takeAll o [] cs).unread = []) (hds : (takeAll o [] ds).unread = []) :
      (takeAll o [] cs).buffered = (takeAll o [] ds).buffered := by
    simpa [hcs, hds] using hLeft.symm
  refine ⟨hFrames.symm, hStop.symm, hLeft.symm, hAppended, ?_, ?_⟩
  · intro hNone
    exact hAppended (unread_takeAll hNone) (unread_takeAll (hStop.trans hNone))
  · intro buf more hSettled
    exact decode_append hSettled more

/-- A text, and behind it a head with reserved bits and one more byte: all at once, or each byte alone.  Byte by byte the
reader stops before it has appended the last one, so what is left is the same, but not the buffers. -/
theorem takeAll_byte_by_byte :
    let o : DecodeOptions := { requireMask := false }
    let bytes : Bytes := [0x81, 2, 0x48, 0x69, 0xF1, 0x80, 7]
    let pieces := bytes.map ([·])
    pieces.flatten = [bytes].flatten ∧ (takeAll o [] pieces).frames = [.text [0x48, 0x69]] ∧
      (takeAll o [] pieces).stop = some .reservedBits ∧
      (takeAll o [] [bytes]).buffered = [0xF1, 0x80, 7] ∧ (takeAll o [] [bytes]).unread = [] ∧
      (takeAll o [] pieces).buffered = [0xF1, 0x80] ∧ (takeAll o [] pieces).unread = [[7]] := by
  intro o bytes pieces
  have hSame : pieces.flatten = [bytes].flatten := rfl
  have hWhole : takeAll o [] [bytes] = ⟨[.text [0x48, 0x69]], some .reservedBits, [0xF1, 0x80, 7], []⟩ := by
    decide +kernel
  have hUnread : (takeAll o [] pieces).unread = [[7]] := by decide +kernel
  obtain ⟨hFrames, hStop, hLeft, -⟩ := takeAll_eq_of_flatten_eq o pieces [bytes] hSame
  rw [hWhole] at hFrames hStop hLeft
  -- Of the bytes that are left the last one was not appended.
  rw [hUnread] at hLeft
  have hBuffered : (takeAll o [] pieces).buffered = [0xF1, 0x80] := by
    have hLast : (takeAll o [] pieces).buffered ++ [7] = [0xF1, 0x80] ++ [7] := hLeft
    exact (List.append_left_inj [7]).mp hLast
  exact ⟨hSame, hFrames, hStop, by rw [hWhole], by rw [hWhole], hBuffered, hUnread⟩

end Frame
end HttpServer
