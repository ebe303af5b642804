import HttpServer.Deflate.Block
import HttpServer.Deflate.Codec

/-!
# Decoding compressed messages

Decoding is a machine with a fixed step: read the head of a block, take bytes of a stored block, or read one
symbol of a coded one.  Every block takes more bits than it takes steps besides those of its symbols, and
every symbol takes a bit, so as many steps as there are bits are enough.

A machine that has used up its input goes on where it was when there is more.  A copy that reaches back beyond
the first byte finds zeros.
-/

namespace HttpServer.Deflate

/-- A message that is being decoded. -/
structure Decoding where
  phase : Phase := .blockHead
  source : BitSource
  output : Array UInt8 := #[]

/-- Append `length` bytes, each equal to the one `distance` before it. -/
def copyBack (distance : Nat) : Nat → Array UInt8 → Array UInt8
  | 0, output => output
  | length + 1, output =>
    let b := if distance ≤ output.size then output.getD (output.size - distance) 0 else 0
    copyBack distance length (output.push b)

namespace Decoding

/-- After a block comes the next one, unless it was the last. -/
def endBlock (last : Bool) (d : Decoding) : Decoding × Option Stop :=
  if last then ({ d with phase := .over }, some .finished) else ({ d with phase := .blockHead }, none)

/-- One step; a reason to stop leaves the output as it was. -/
def step (d : Decoding) : Decoding × Option Stop :=
  match d.phase with
  | .over => (d, some .finished)
  | .blockHead =>
    match d.source.blockHead with
    | .error stop => (d, some stop)
    | .ok (phase, source) => ({ d with phase, source }, none)
  | .stored 0 last => d.endBlock last
  | .stored remaining last =>
    let bytes := d.source.bytes
    if bytes.isEmpty then (d, some .exhausted)
    else
      ({ phase := .stored (remaining - bytes.length) last, source := { bytes := bytes.drop remaining },
         output := d.output ++ (bytes.take remaining).toArray }, none)
  | .coded literals distances last =>
    match d.source.symbol literals distances with
    | .error stop => (d, some stop)
    | .ok (.literal b, source) => ({ d with source, output := d.output.push b }, none)
    | .ok (.copy length distance, source) =>
      ({ d with source, output := copyBack distance length d.output }, none)
    | .ok (.endOfBlock, source) => { d with source }.endBlock last

/-- Run until something stops the decoder, or until there are more than `bound` bytes. -/
def run (bound : Nat) : Nat → Decoding → Decoding × Stop
  | 0, d => (d, .exhausted)
  | fuel + 1, d =>
    if bound < d.output.size then (d, .overflow)
    else
      match d.step with
      | (d, some stop) => (d, stop)
      | (d, none) => run bound fuel d

/-- Go on with more input. -/
def resume (bound : Nat) (input : Bytes) (d : Decoding) : Decoding × Stop :=
  let source := { d.source with bytes := d.source.bytes ++ input }
  run bound (source.size + 2) { d with source }

end Decoding

/-- The part of the output that copies can reach, and that is decoded in one go. -/
def windowSize : Nat := 32768

/-- The next number of bytes that makes whole windows. -/
def wholeWindows (n : Nat) : Nat :=
  (n + windowSize - 1) / windowSize * windowSize

/-- A decompressor: it takes in all that it is shown, decodes whole windows, and gives as much as there is room for. -/
structure WindowReader where
  decoding : Decoding := { source := { bytes := [] } }
  /-- How many bytes of the output were given. -/
  delivered : Nat := 0

namespace WindowReader

/-- What a call says when decoding has stopped: all of `input` was taken in, and as much is given as there is room for. -/
def answer (delivered : Nat) (input : Bytes) (room : Nat) :
    Decoding × Stop → Except String (Call WindowReader)
  | (_, .corrupt) => .error "deflate decompression error"
  | (decoding, stop) =>
    let given := (decoding.output.toList.drop delivered).take room
    let delivered := delivered + given.length
    let status :=
      if stop = .finished ∧ decoding.output.size ≤ delivered then .streamEnd
      else if input = [] ∧ given = [] then .stalled
      else .ok
    .ok { taken := input.length, given, status, state := { decoding, delivered } }

/-- Decode some more input into some more room. -/
def call (r : WindowReader) (input : Bytes) (room : Nat) : Except String (Call WindowReader) :=
  answer r.delivered input room (r.decoding.resume (wholeWindows (r.delivered + room)) input)

theorem bounds_of_answer {delivered room : Nat} {input : Bytes} {p : Decoding × Stop} {c : Call WindowReader}
    (h : answer delivered input room p = .ok c) : c.taken = input.length ∧ c.given.length ≤ room := by
  unfold answer at h
  split at h
  · contradiction
  · obtain rfl := Except.ok.inj h
    exact ⟨rfl, List.length_take_le ..⟩

/-- This decompressor keeps to what it is shown, and uses up all of it at once. -/
def decompressor : Decompressor where
  State := WindowReader
  start := {}
  call := call
  taken_le h := Nat.le_of_eq (bounds_of_answer h).1
  given_le h := (bounds_of_answer h).2
  progress h hInput _ _ := .inl ((bounds_of_answer h).1 ▸ List.length_pos_iff.mpr hInput)

end WindowReader
end HttpServer.Deflate
