import HttpServer.Session

/-!
# Peers — a session as far as it has come

A peer sends bytes, one chunk after the other, and may end its stream.  What it can have read so far is what
its session writes for the chunks that were sent so far: as long as the peer has not ended its stream, the
session waits where the bytes end (`TransportError.wouldBlock`).

A deadline that passes fails the stream.  A server that shuts down ends the sessions that wait between two
requests; one that is in the middle of a request answers it first.
-/

namespace HttpServer

namespace SessionEnd

/-- Whether a session waits for bytes that may still come. -/
def isWaiting : SessionEnd → Bool
  | .interrupted .wouldBlock => true
  | .unreadable (.network .wouldBlock) => true
  | .takenOver _ (some .wouldBlock) => true
  | _ => false

/-- Whether a session waits for a request of which nothing has come yet. -/
def isResting : SessionEnd → Bool
  | .interrupted .wouldBlock => true
  | _ => false

/-- For how many milliseconds a session waits at most: for a request, or for the rest of one that has been
begun.  The deadline of the first request covers both. -/
def deadline? (config : ServerConfig) (isFirst : Bool) : SessionEnd → Option Nat
  | .interrupted .wouldBlock => if isFirst then config.readTimeout else config.keepAliveTimeout
  | .unreadable (.network .wouldBlock) => config.readTimeout
  | _ => none

end SessionEnd

/-- How many requests a session answers if the server shuts down now: those that it has answered, and the one
that has been begun. -/
def Session.lastAtShutdown : SessionEnd × Session → Nat
  | (.unreadable (.network .wouldBlock), s) => s.exchanges.length + 1
  | (_, s) => s.exchanges.length

/-- A peer, and what it has done so far. -/
structure Peer where
  /-- Whether the server took the connection. -/
  admitted : Bool := true
  chunks : List Bytes := []
  /-- Whether the peer has ended its stream. -/
  ended : Bool := false
  /-- Whether a deadline has passed while the session waited. -/
  expired : Bool := false
  /-- How many of the bytes that came back were read. -/
  read : Nat := 0
  /-- How many requests are answered at most, once the server shuts down. -/
  lastRequest : Option Nat := none
  /-- How many of its requests have been noted. -/
  noted : Nat := 0
  deriving DecidableEq, Repr

namespace Peer

/-- The stream of a peer as it is by now. -/
def inbound (p : Peer) : Inbound :=
  { chunks := p.chunks
    ending :=
      if p.ended then .closed else if p.expired then .failed .timedOut else .failed .wouldBlock }

/-- The session of a peer as far as it has come. -/
def session (setting : Setting) (p : Peer) : SessionEnd × Session :=
  let setting := { setting with stopsBefore := fun n => p.lastRequest.any (· ≤ n) }
  if p.admitted then Session.serve setting p.inbound else (.done, Session.start setting p.inbound)

/-- The bytes that came back from a session and were not read yet. -/
def unread (p : Peer) (r : SessionEnd × Session) : Bytes :=
  (Session.output r).drop p.read

/-- The peer when the server shuts down. -/
def atShutdown (p : Peer) (r : SessionEnd × Session) : Peer :=
  if p.lastRequest.isNone then { p with lastRequest := some (Session.lastAtShutdown r) } else p

end Peer
end HttpServer
