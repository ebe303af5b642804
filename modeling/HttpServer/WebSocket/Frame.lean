import HttpServer.Text.BigEndian
import HttpServer.Text.Number

/-!
# WebSocket frames

A frame is a header of two bytes, a longer length where seven bits do not hold it, a mask, and the payload
under the mask.  `Frame.encode` uses the shortest length form; reading one is in `WebSocket.Frame.Decode`.

A mask is undone by applying it again (`Mask.apply_apply`), and opcodes are told apart by four bits
(`Opcode.ofByte?_code`).
-/

namespace HttpServer

/-- What a frame carries. -/
inductive Opcode where
  | continuation
  | text
  | binary
  | close
  | ping
  | pong
  deriving DecidableEq, Repr

namespace Opcode

/-- The number of an opcode on the wire. -/
def code : Opcode → UInt8
  | .continuation => 0x0
  | .text => 0x1
  | .binary => 0x2
  | .close => 0x8
  | .ping => 0x9
  | .pong => 0xA

/-- The opcode in the low four bits of a byte. -/
def ofByte? (b : UInt8) : Option Opcode :=
  match (b &&& 0x0F).toNat with
  | 0x0 => some .continuation
  | 0x1 => some .text
  | 0x2 => some .binary
  | 0x8 => some .close
  | 0x9 => some .ping
  | 0xA => some .pong
  | _ => none

/-- Whether a frame steers the connection rather than carrying a part of a message. -/
def isControl : Opcode → Bool
  | .close | .ping | .pong => true
  | .continuation | .text | .binary => false

/-- Whether a frame begins a message. -/
def beginsMessage : Opcode → Bool
  | .text | .binary => true
  | .continuation | .close | .ping | .pong => false

theorem ofByte?_code (o : Opcode) : ofByte? o.code = some o := by
  cases o <;> rfl

end Opcode

/-- The four bytes that a payload is combined with. -/
structure Mask where
  first : UInt8
  second : UInt8
  third : UInt8
  fourth : UInt8
  deriving DecidableEq, Repr

namespace Mask

/-- The bytes of a mask in order. -/
def bytes (m : Mask) : Bytes :=
  [m.first, m.second, m.third, m.fourth]

/-- The byte of the mask that meets the payload at index `i`. -/
def byte (m : Mask) (i : Nat) : UInt8 :=
  match i % 4 with
  | 0 => m.first
  | 1 => m.second
  | 2 => m.third
  | _ => m.fourth

/-- Put a payload under the mask, or take it out again. -/
def apply (m : Mask) (payload : Bytes) : Bytes :=
  payload.mapIdx fun i b => b ^^^ m.byte i

@[simp] theorem length_apply (m : Mask) (payload : Bytes) : (m.apply payload).length = payload.length := by
  simp [apply]

@[simp] theorem apply_apply (m : Mask) (payload : Bytes) : m.apply (m.apply payload) = payload := by
  simp only [apply, List.mapIdx_mapIdx]
  refine List.ext_getElem (by simp) fun i h₁ h₂ => ?_
  simp only [List.getElem_mapIdx, Function.comp_apply]
  rw [UInt8.xor_assoc, UInt8.xor_self, UInt8.xor_zero]

end Mask

/-- One frame, with its payload out of the mask. -/
structure Frame where
  fin : Bool := true
  /-- On the first frame of a compressed message. -/
  rsv1 : Bool := false
  opcode : Opcode
  mask : Option Mask := none
  payload : Bytes := []
  deriving DecidableEq, Repr

namespace Frame

/-- A frame that is a whole message. -/
def text (payload : Bytes) : Frame :=
  { opcode := .text, payload }

/-- A frame that is a whole message of bytes. -/
def binary (payload : Bytes) : Frame :=
  { opcode := .binary, payload }

/-- A question whether the peer is there. -/
def ping (payload : Bytes) : Frame :=
  { opcode := .ping, payload }

/-- The answer to a ping. -/
def pong (payload : Bytes) : Frame :=
  { opcode := .pong, payload }

/-- The end of the connection, with a code and a reason. -/
def close (code : UInt16) (reason : String) : Frame :=
  { opcode := .close, payload := bigEndian 2 code.toNat ++ Utf8.ofText reason }

/-- The flags and the opcode. -/
def firstByte (f : Frame) : UInt8 :=
  (if f.fin then 0x80 else 0) ||| (if f.rsv1 then 0x40 else 0) ||| f.opcode.code

/-- The length in the shortest of its three forms; the first byte also says whether there is a mask. -/
def encodeLength (maskBit : UInt8) (n : Nat) : Bytes :=
  if n < 126 then [maskBit ||| UInt8.ofNat n]
  else if n < 65536 then (maskBit ||| 126) :: bigEndian 2 n
  else (maskBit ||| 127) :: bigEndian 8 n

/-- The frame on the wire. -/
def encode (f : Frame) : Bytes :=
  match f.mask with
  | some mask => f.firstByte :: encodeLength 0x80 f.payload.length ++ mask.bytes ++ mask.apply f.payload
  | none => f.firstByte :: encodeLength 0 f.payload.length ++ f.payload

end Frame
end HttpServer
