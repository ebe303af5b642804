import HttpServer.Text.Utf8

/-!
# Codecs — what compresses and decompresses messages

Compression itself is not settled here.  A coder is called again and again: each call is shown what is left of the input
and how much room there is for output, takes some bytes off the front of the one, gives some bytes for the other, and says
how it stands.  `Decompressor` and `Compressor` ask of a coder what callers rely on, and no more: it keeps to what it is
shown, and it does not stand still.

Everything that is said about WebSockets holds for every `Codec`.
-/

namespace HttpServer.Deflate

/-- How a coder stands behind a call. -/
inductive CallStatus where
  | ok
  /-- Nothing could be done with so little input or room. -/
  | stalled
  /-- The stream is over. -/
  | streamEnd
  deriving DecidableEq, Repr

/-- What one call has done. -/
structure Call (State : Type) where
  /-- How many bytes of the input were used. -/
  taken : Nat
  /-- The output. -/
  given : Bytes
  status : CallStatus
  state : State
  deriving DecidableEq, Repr

/-- A machine that is shown input and room for output; a failure is a text. -/
structure Coder where
  State : Type
  start : State
  call : State → Bytes → Nat → Except String (Call State)
  taken_le {s : State} {input : Bytes} {room : Nat} {c : Call State} (h : call s input room = .ok c) :
    c.taken ≤ input.length
  given_le {s : State} {input : Bytes} {room : Nat} {c : Call State} (h : call s input room = .ok c) :
    c.given.length ≤ room

/-- A coder that decompresses: as long as there are input and room it uses up some of either, unless the stream is over. -/
structure Decompressor extends Coder where
  progress {s : State} {input : Bytes} {room : Nat} {c : Call State} (h : call s input room = .ok c)
    (hInput : input ≠ []) (hRoom : 0 < room) (hStatus : c.status ≠ .streamEnd) : 0 < c.taken ∨ c.given ≠ []

/-- The most bytes of a mark that ends what is flushed.  With no more room than this, a coder may write one mark after the
other. -/
def flushMark : Nat := 6

/-- A coder that compresses, and flushes in each call what it was shown: it leaves no input behind if it leaves room, and
what is due gets less when a room that is larger than a mark is filled. -/
structure Compressor extends Coder where
  due : State → Bytes → Nat
  taken_of_room {s : State} {input : Bytes} {room : Nat} {c : Call State} (h : call s input room = .ok c)
    (hRoom : c.given.length < room) : c.taken = input.length
  due_lt {s : State} {input : Bytes} {room : Nat} {c : Call State} (h : call s input room = .ok c)
    (hRoom : flushMark < room) (hFull : c.given.length = room) : due c.state (input.drop c.taken) < due s input

/-- What messages are compressed and decompressed with. -/
class Codec where
  compressor : Compressor
  decompressor : Decompressor

end HttpServer.Deflate
