import HttpServer.Deflate.Output

/-!
# Whole messages through a codec

A message is decompressed by calling the decompressor until all input is used and room is left, or the stream is over.  The
limit is looked at behind each call, on the output so far, so a message over it is refused before all of it is there.
Compression goes the same way without a limit.

Every message ends with the same four bytes, which are left off on the wire.
-/

namespace HttpServer.Deflate

variable [Codec]

/-- What every compressed message ends with. -/
def tail : Bytes := [0x00, 0x00, 0xFF, 0xFF]

/-! ## Decompression -/

/-- Why a message cannot be had. -/
inductive InflateError where
  /-- The codec has failed. -/
  | failed (text : String)
  | tooLarge (limit : Nat)
  deriving DecidableEq, Repr

/-- Decompress what is left of the input behind the output so far. -/
def inflateFrom (limit : Nat) (s : Codec.decompressor.State) (input : Bytes) (out : Output) :
    Except InflateError Bytes :=
  match hCall : Codec.decompressor.call s input out.room with
  | .error text => .error (.failed text)
  | .ok c =>
    let output := out.bytes ++ c.given
    let rest := input.drop c.taken
    if limit < output.length then .error (.tooLarge limit)
    else if (rest = [] ∧ output.length < out.capacity) ∨ c.status = .streamEnd then .ok output
    else inflateFrom limit c.state rest (out.extend c.given (Codec.decompressor.given_le hCall))
termination_by input.length + (limit + 1 - out.bytes.length)
decreasing_by
  rename_i hLimit hGoesOn
  obtain ⟨hUnfinished, hStatus⟩ := not_or.mp hGoesOn
  have hRoom := out.minRoom_le_room
  simp only [Output.bytes_extend, List.length_drop, List.length_append, output, rest] at hLimit hUnfinished ⊢
  cases input with
  | nil =>
    -- Nothing is left to be shown, so the room is full.
    have hFull : 0 < c.given.length := by
      simp only [List.drop_nil, true_and, Output.room, minRoom] at hUnfinished hRoom
      omega
    simp only [List.length_nil]
    omega
  | cons b bs =>
    have hProgress := Codec.decompressor.progress hCall (by simp) (by unfold minRoom at hRoom; omega) hStatus
    rw [← List.length_pos_iff] at hProgress
    simp only [List.length_cons]
    omega

/-- The message of at most `limit` bytes that was compressed to `data`. -/
def inflate (limit : Nat) (data : Bytes) : Except InflateError Bytes :=
  inflateFrom limit Codec.decompressor.start (data ++ tail)
    { capacity := max (2 * data.length) minRoom, spacious := by simp only [List.length_nil]; omega }

/-- However the output grows, it is refused as soon as it is longer than the limit. -/
theorem length_of_inflateFrom {limit : Nat} {s : Codec.decompressor.State} {input message : Bytes} {out : Output}
    (h : inflateFrom limit s input out = .ok message) : message.length ≤ limit := by
  fun_induction inflateFrom limit s input out with
  | case1 => contradiction
  | case2 => contradiction
  | case3 s input out c hCall output rest hLimit hEnd =>
    obtain rfl : output = message := Except.ok.inj h
    exact Nat.le_of_not_lt hLimit
  | case4 s input out c hCall output rest hLimit hGoesOn ih => exact ih h

/-- A message that was decompressed is no longer than the limit. -/
theorem length_of_inflate {limit : Nat} {data message : Bytes} (h : inflate limit data = .ok message) :
    message.length ≤ limit :=
  length_of_inflateFrom h

/-! ## Compression -/

/-- Compress what is left of the input behind the output so far. -/
def deflateFrom (s : Codec.compressor.State) (input : Bytes) (out : Output) : Except String Bytes :=
  match hCall : Codec.compressor.call s input out.room with
  | .error text => .error text
  | .ok c =>
    let output := out.bytes ++ c.given
    let rest := input.drop c.taken
    if rest = [] ∧ output.length < out.capacity then .ok output
    else deflateFrom c.state rest (out.extend c.given (Codec.compressor.given_le hCall))
termination_by Codec.compressor.due s input
decreasing_by
  rename_i hGoesOn
  have hGiven := Codec.compressor.given_le hCall
  have hRoom := out.minRoom_le_room
  -- A call that leaves room has taken all input, and then it is the last one.
  have hFull : c.given.length = out.room := by
    refine Decidable.byContradiction fun hNotFull => ?_
    have hTaken := Codec.compressor.taken_of_room hCall (by omega)
    refine hGoesOn ⟨by simp [rest, hTaken], ?_⟩
    simp only [output, List.length_append]
    unfold Output.room at hGiven hNotFull
    omega
  exact Codec.compressor.due_lt hCall (by unfold minRoom at hRoom; unfold flushMark; omega) hFull

/-- Compress a message, without the tail. -/
def deflate (message : Bytes) : Except String Bytes :=
  (deflateFrom Codec.compressor.start message
    { capacity := message.length + minRoom, spacious := by simp }).map fun data =>
      if tail <:+ data then data.take (data.length - tail.length) else data

end HttpServer.Deflate
