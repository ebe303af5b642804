import HttpServer.Text.BigEndian
import HttpServer.Text.Chunks

/-!
# The SHA-1 digest

The message is padded to whole blocks of sixteen words; eighty rounds mix each block into a state of five
words, and the state behind the last block is the digest.
-/

namespace HttpServer.Sha1

/-- The five words of a state. -/
structure Words where
  a : UInt32
  b : UInt32
  c : UInt32
  d : UInt32
  e : UInt32
  deriving DecidableEq, Repr

/-- The state before the first block. -/
def Words.initial : Words :=
  ⟨0x67452301, 0xEFCDAB89, 0x98BADCFE, 0x10325476, 0xC3D2E1F0⟩

def Words.add (s t : Words) : Words :=
  ⟨s.a + t.a, s.b + t.b, s.c + t.c, s.d + t.d, s.e + t.e⟩

/-- The state as twenty bytes. -/
def Words.bytes (s : Words) : Bytes :=
  [s.a, s.b, s.c, s.d, s.e].flatMap fun w => bigEndian 4 w.toNat

/-- Turn a word left by `n` bits. -/
def rotate (n x : UInt32) : UInt32 :=
  (x <<< n) ||| (x >>> (32 - n))

/-- The message, a single one bit, zeros, and the length of the message in bits. -/
def pad (message : Bytes) : Bytes :=
  message ++ 0x80 :: List.replicate ((119 - message.length % 64) % 64) 0 ++ bigEndian 8 (8 * message.length)

/-- The eighty words that a block is spread to. -/
def schedule (block : Bytes) : List UInt32 :=
  let words := ((chunksOf 4 block).map fun w => UInt32.ofNat (ofBigEndian w)).toArray
  let word (ws : Array UInt32) (i : Nat) : UInt32 := ws.getD i 0
  let mixed (ws : Array UInt32) (t : Nat) : UInt32 :=
    word ws (t - 3) ^^^ word ws (t - 8) ^^^ word ws (t - 14) ^^^ word ws (t - 16)
  ((List.range' 16 64).foldl (fun ws t => ws.push (rotate 1 (mixed ws t))) words).toList

/-- How round `t` mixes three words, and the constant it adds. -/
def mix (t : Nat) (b c d : UInt32) : UInt32 × UInt32 :=
  if t < 20 then ((b &&& c) ||| (~~~b &&& d), 0x5A827999)
  else if t < 40 then (b ^^^ c ^^^ d, 0x6ED9EBA1)
  else if t < 60 then ((b &&& c) ||| (b &&& d) ||| (c &&& d), 0x8F1BBCDC)
  else (b ^^^ c ^^^ d, 0xCA62C1D6)

/-- Round `t`. -/
def round (s : Words) (w : UInt32) (t : Nat) : Words :=
  let (f, k) := mix t s.b s.c s.d
  ⟨rotate 5 s.a + f + s.e + k + w, s.a, rotate 30 s.b, s.c, s.d⟩

/-- Mix one block into the state. -/
def compress (s : Words) (block : Bytes) : Words :=
  s.add ((schedule block).zipIdx.foldl (fun s (w, t) => round s w t) s)

/-- The digest of a message. -/
def digest (message : Bytes) : Bytes :=
  ((chunksOf 64 (pad message)).foldl compress Words.initial).bytes

end HttpServer.Sha1
