import HttpServer.Service.Routes
import HttpServer.Session.Peer

/-!
# Conversations — sessions with peers that come over the network

Everything that a peer is told is settled by `Peer.session`: for the bytes that have come so far it says what
has been answered, whether the session goes on, and how long it may wait.  A conversation keeps what is needed
to ask again when more bytes have come.  Dates and dialled places are remembered, so that the same bytes are
answered in the same way again.  Between two requests nothing of the bytes so far is needed any more, and the
conversation begins anew.

Nothing is read or written here, and nobody waits; sockets are of any type.
-/

namespace HttpServer.Service

/-- A connection so far. -/
structure Conversation (Socket : Type) where
  peer : Peer := {}
  /-- How many requests were answered before the first chunk of the peer. -/
  answered : Nat := 0
  /-- The dates of the responses to its chunks, the first one first. -/
  dates : List Int := []
  /-- The places that were dialled, with their sockets if they could be reached. -/
  dialled : List (String × Option Socket) := []
  /-- What the session waits for: how many requests were answered before, and whether it rests behind them. -/
  phase : Nat × Bool := (0, false)
  /-- When it began to wait for that, in milliseconds. -/
  since : Option Int := none

/-- What ends a wait. -/
inductive WaitEnd where
  /-- The peer has sent something, or has ended its stream. -/
  | received (bytes : Option Bytes)
  | expired
  /-- The server shuts down. -/
  | stopped
  deriving Inhabited

/-- The second of a time in milliseconds. -/
def secondOf (time : Int) : Int :=
  time / 1000

/-- The place that the last request wants to be connected to. -/
def destination? (session : Session) : Option String :=
  session.calls.getLast?.bind fun r => (Tunnel.destination r).toOption

namespace Conversation

variable {Socket : Type}

/-- What the session works with, at some time in milliseconds. -/
def setting [Deflate.Codec] (config : ServerConfig) (socketConfig : WebSocketConfig) (time : Int)
    (c : Conversation Socket) : Setting :=
  let dialled (address : String) : Option Tunnel.Remote :=
    (c.dialled.lookup address).join.map fun _ _ => []
  { config
    handler := route socketConfig dialled
    clock := fun n => c.dates.getD n (secondOf time) }

/-- The place that has to be dialled before the session can go on. -/
def undialled? (r : SessionEnd × Session) (c : Conversation Socket) : Option String :=
  (destination? r.2).filter fun address => (c.dialled.lookup address).isNone

/-- The conversation when a place was dialled. -/
def withDialled (address : String) (socket : Option Socket) (c : Conversation Socket) : Conversation Socket :=
  { c with dialled := (address, socket) :: c.dialled }

/-- The socket of the place that the connection was handed over to, with the bytes that belong there. -/
def tunnel? (r : SessionEnd × Session) (c : Conversation Socket) : Option (Socket × Bytes) :=
  match r.1, (destination? r.2).bind fun address => (c.dialled.lookup address).join with
  | .takenOver _ _, some remote => some (remote, r.2.toUpgraded.remaining)
  | _, _ => none

/-- The conversation when its session has come as far as `r` and waits, with everything sent. -/
def advance (time : Int) (r : SessionEnd × Session) (c : Conversation Socket) : Conversation Socket :=
  let answered := c.answered + r.2.exchanges.length
  let phase := (answered, r.1.isResting && answered != 0)
  let c := { c with phase, since := some (if phase == c.phase then c.since.getD time else time) }
  if r.1.isResting then { c with peer := {}, answered, dates := [] }
  else
    { c with peer := { c.peer with read := (Session.output r).length }
             dates := c.dates ++ List.replicate (r.2.calls.length - c.dates.length) (secondOf time) }

/-- For how many milliseconds the session still waits. -/
def timeLeft? (config : ServerConfig) (time : Int) (r : SessionEnd × Session) (c : Conversation Socket) :
    Option Nat :=
  (r.1.deadline? config (c.phase.1 == 0)).map fun ms => (c.since.getD time + ms - time).toNat

/-- The conversation behind the end of a wait. -/
def after (setting : Setting) (e : WaitEnd) (c : Conversation Socket) : Conversation Socket :=
  { c with peer :=
      match e with
      | .received (some bytes) => { c.peer with chunks := c.peer.chunks ++ [bytes] }
      | .received none => { c.peer with ended := true }
      | .expired => { c.peer with expired := true }
      | .stopped => c.peer.atShutdown (c.peer.session setting) }

end Conversation
end HttpServer.Service
