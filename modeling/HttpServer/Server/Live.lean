import HttpServer.Server.Tracker
import HttpServer.Session.Peer

/-!
# A running server, seen by its peers

Peers connect, send bytes, read what comes back and leave, and somebody may shut the server down meanwhile.

Time passes only while somebody waits for something.  Those who wait see the deadlines of the server pass,
which end sessions: that of the request that is awaited, or that of the response that the peer does not take.
-/

namespace HttpServer

/-- A server that is listening. -/
structure LiveServer where
  config : ServerConfig := {}
  handler : Handler
  /-- Whether peers can reach the server at all. -/
  isReachable : Bool := true
  /-- Whether the address filter lets peers in. -/
  admits : Bool := true
  /-- How many bytes are on their way to a peer at most while it does not read. -/
  window : Nat := 8388608
  clock : Nat → Int := fun _ => 0
  tracker : Tracker := {}
  peers : List (String × Peer) := []
  /-- The requests that the application was called with. -/
  calls : List Request := []

namespace LiveServer

/-- The session of a peer as far as it has come. -/
def session (s : LiveServer) (p : Peer) : SessionEnd × Session :=
  p.session { config := s.config, handler := s.handler, clock := s.clock }

/-- Whether the server holds bytes that the peer does not take. -/
def isStuck (s : LiveServer) (p : Peer) (r : SessionEnd × Session) : Bool :=
  s.window < (p.unread r).length && !p.expired

/-- Whether a peer is still being served. -/
def isActive (s : LiveServer) (p : Peer) : Bool :=
  let r := s.session p
  r.1.isWaiting || s.isStuck p r

/-- How many peers are being served. -/
def activeCount (s : LiveServer) : Nat :=
  (s.peers.filter fun (_, p) => s.isActive p).length

/-- The peer with a name. -/
def peer? (s : LiveServer) (name : String) : Option Peer :=
  s.peers.lookup name

/-- Put a peer in the place of the one with its name, and note the requests that it has made by now. -/
def setPeer (s : LiveServer) (name : String) (p : Peer) : LiveServer :=
  let calls := (s.session p).2.calls
  let p' := { p with noted := calls.length }
  { s with calls := s.calls ++ calls.drop p.noted
           peers := (name, p') :: s.peers.filter (·.1 != name) }

/-- Let a peer connect. -/
def connect (s : LiveServer) (name : String) : Except TransportError LiveServer :=
  if s.isReachable && !s.tracker.shuttingDown then .ok (s.setPeer name { admitted := s.admits })
  else .error .refused

/-- Let a peer send some bytes. -/
def send (s : LiveServer) (name : String) (bytes : Bytes) : Option LiveServer :=
  (s.peer? name).map fun p => s.setPeer name { p with chunks := p.chunks ++ [bytes] }

/-- Let a peer end its stream. -/
def halfClose (s : LiveServer) (name : String) : Option LiveServer :=
  (s.peer? name).map fun p => s.setPeer name { p with ended := true }

/-- Let a peer leave. -/
def leave (s : LiveServer) (name : String) : Option LiveServer :=
  (s.halfClose name).map fun s => { s with peers := s.peers.filter (·.1 != name) }

/-- Let a peer read `n` bytes; fewer are not enough. -/
def recv (s : LiveServer) (name : String) (n : Nat) : Option (Option Bytes × LiveServer) :=
  (s.peer? name).map fun p =>
    let unread := p.unread (s.session p)
    if n ≤ unread.length then (some (unread.take n), s.setPeer name { p with read := p.read + n })
    else (none, s)

/-- How many bytes a head has, with the blank line that ends it. -/
def headLength : Bytes → Option Nat
  | 0x0D :: 0x0A :: 0x0D :: 0x0A :: _ => some 4
  | _ :: rest => (headLength rest).map (· + 1)
  | [] => none

/-- Let a peer read up to the end of a head. -/
def recvHead (s : LiveServer) (name : String) : Option (Option Bytes × LiveServer) :=
  (s.peer? name).bind fun p =>
    match headLength (p.unread (s.session p)) with
    | some n => s.recv name n
    | none => some (none, s)

/-- Let a peer read until nothing more comes, for which it may have to wait until a deadline passes. -/
def recvAll (s : LiveServer) (name : String) : Option (Bytes × LiveServer) :=
  (s.peer? name).map fun p =>
    let p := { p with expired := true }
    let unread := p.unread (s.session p)
    (unread, s.setPeer name { p with read := p.read + unread.length })

/-- For how many milliseconds the session of a peer waits at most: for the peer to take what came back, or for
what the peer sends.  Without a limit it waits for ever. -/
def deadline? (s : LiveServer) (p : Peer) : Option Nat :=
  let r := s.session p
  if s.isStuck p r then s.config.writeTimeout else r.1.deadline? s.config r.2.exchanges.isEmpty

/-- Let some milliseconds pass. -/
def elapse (s : LiveServer) (ms : Nat) : LiveServer :=
  { s with peers := s.peers.map fun (name, p) =>
      (name, if (s.deadline? p).any (· ≤ ms) then { p with expired := true } else p) }

/-- The moments at which something ends by itself, up to the end of somebody's patience. -/
def moments (s : LiveServer) (patience : Option Nat) : List Nat :=
  let deadlines := s.peers.filterMap fun (_, p) => s.deadline? p
  0 :: (deadlines.filter fun ms => patience.all (ms ≤ ·)).mergeSort (· ≤ ·)

/-- Wait until `n` peers are being served; the answer is whether it came to that. -/
def awaitCount (s : LiveServer) (n : Nat) (patience : Option Nat) : Bool × LiveServer :=
  let states := (s.moments patience).map s.elapse
  match states.find? (·.activeCount == n) with
  | some s => (true, s)
  | none => (false, states.getLast?.getD s)

/-- Shut the server down. -/
def shutdown (s : LiveServer) : LiveServer :=
  { s with tracker := s.tracker.startShutdown
           peers := s.peers.map fun (name, p) => (name, p.atShutdown (s.session p)) }

/-- Shut the server down, and wait until nobody is being served any more; the answer is whether it came to
that. -/
def gracefulShutdown (s : LiveServer) (patience : Option Nat) : Bool × LiveServer :=
  s.shutdown.awaitCount 0 patience

/-- What serving ends with, once it has ended. -/
def result (s : LiveServer) : Option Error :=
  if s.tracker.shuttingDown then some .serverClosed else none

end LiveServer
end HttpServer
