import HttpServer.Deflate.Codec
import HttpServer.Deflate.Decoding
import HttpServer.Text.Chunks

/-!
# Compression without compressing

Any sequence of blocks that decodes to a message is a correct compression of it.  This compressor writes what it is shown in
stored blocks, none of which is the last, and an empty one behind them that marks the end of what is flushed.

Together with the decompressor that reads all kinds of blocks it makes a codec.
-/

namespace HttpServer.Deflate

/-- The most bytes that one stored block can have. -/
def maxStored : Nat := 65535

/-- A stored block that is not the last one. -/
def storedBlock (bytes : Bytes) : Bytes :=
  let low := UInt8.ofNat bytes.length
  let high := UInt8.ofNat (bytes.length / 256)
  [0x00, low, high, low ^^^ 0xFF, high ^^^ 0xFF] ++ bytes

/-- Some bytes in stored blocks, with the mark behind them. -/
def flushed (bytes : Bytes) : Bytes :=
  ((chunksOf maxStored bytes).map storedBlock).flatten ++ storedBlock []

/-- What a compressor has written but not given yet; there is nothing before its first call. -/
abbrev BlockWriter := Option Bytes

namespace BlockWriter

/-- What is written when `input` is shown. -/
def written : BlockWriter → Bytes → Bytes
  | none, input => flushed input
  | some pending, [] => pending
  | some pending, input => pending ++ flushed input

/-- Write all of the input, and give as much as there is room for. -/
def call (w : BlockWriter) (input : Bytes) (room : Nat) : Call BlockWriter :=
  let bytes := w.written input
  { taken := input.length, given := bytes.take room, status := if bytes = [] then .stalled else .ok,
    state := some (bytes.drop room) }

/-- This compressor is done when it has given all that it has written. -/
def compressor : Compressor where
  State := BlockWriter
  start := none
  call w input room := .ok (w.call input room)
  taken_le h := by
    obtain rfl := Except.ok.inj h
    exact Nat.le_refl _
  given_le h := by
    obtain rfl := Except.ok.inj h
    exact List.length_take_le ..
  due w input := (w.written input).length
  taken_of_room h _ := by
    obtain rfl := Except.ok.inj h
    rfl
  due_lt {w input room c} h hRoom hFull := by
    obtain rfl := Except.ok.inj h
    have hLeft : written (some ((w.written input).drop room)) (input.drop input.length) = (w.written input).drop room := by
      rw [List.drop_length]
      rfl
    simp only [call, List.length_take, hLeft, List.length_drop] at hFull ⊢
    omega

end BlockWriter

/-- The codec that writes stored blocks and reads all kinds. -/
@[reducible] def Codec.stored : Codec where
  compressor := BlockWriter.compressor
  decompressor := WindowReader.decompressor

end HttpServer.Deflate
