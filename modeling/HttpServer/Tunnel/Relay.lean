import HttpServer.Transport.Inbound
import HttpServer.Transport.Outbound

/-!
# Relays — copying bytes both ways between two streams

A relay has one flow for each direction.  A flow reads from its source, writes to its sink what it has read, in that
order, and flushes; it stops cleanly when its source has ended cleanly and all that it holds is written and flushed,
and it fails as soon as reading, writing or flushing fails.  How much it reads before it writes, and how much of that
is written at once, is left open: each turn says what is done (`Work`), and the two flows take turns in any order.

As soon as one flow has stopped, the other one is given up where it is.  Then the writing side toward the remote end
is shut down, and after it the one toward the client, whether or not the streams can still do it.

Between the turns anything can happen at the two ends (`Relay.Event`).
-/

namespace HttpServer

/-- The next thing that a flow does. -/
inductive Work where
  /-- Take some bytes that are ready, so many at most, or notice that the source has ended. -/
  | read (most : Nat)
  /-- Write some of the held bytes, so many at most. -/
  | write (most : Nat)
  /-- Flush the sink, which fails or not. -/
  | flush (failure : Option TransportError)
  deriving DecidableEq, Repr

/-- One direction of a relay. -/
structure Flow where
  /-- Bytes that the source has ready. -/
  ready : Bytes := []
  /-- How the source ends behind them; `none` while more may come. -/
  ending : Option StreamEnd := none
  /-- Bytes that were taken so far, the held ones too. -/
  taken : Bytes := []
  /-- Bytes that were taken but not written yet. -/
  held : Bytes := []
  /-- Whether the source was seen to end cleanly. -/
  drained : Bool := false
  sink : Outbound := {}
  /-- How the flow stopped. -/
  stopped : Option StreamEnd := none
  /-- Whether the writing side of the sink was shut down. -/
  shut : Bool := false
  deriving DecidableEq, Repr

namespace Flow

/-- Take at most `n` bytes, or notice that the source has ended. -/
def read (n : Nat) (f : Flow) : Flow :=
  if f.ready.isEmpty then
    match f.ending with
    | none => f
    | some .closed => { f with drained := true }
    | some (.failed e) => { f with stopped := some (.failed e) }
  else { f with ready := f.ready.drop n, taken := f.taken ++ f.ready.take n, held := f.held ++ f.ready.take n }

/-- Write at most `n` of the held bytes. -/
def write (n : Nat) (f : Flow) : Flow :=
  if (f.held.take n).isEmpty then f
  else
    match f.sink.write (f.held.take n) with
    | .error e => { f with stopped := some (.failed e) }
    | .ok sink => { f with sink, held := f.held.drop n }

/-- Flush the sink.  Behind the clean end of the source that is the last thing to do, when nothing is held. -/
def flush (failure : Option TransportError) (f : Flow) : Flow :=
  match failure with
  | some e => { f with stopped := some (.failed e) }
  | none => if f.drained && f.held.isEmpty then { f with stopped := some .closed } else f

/-- Do the next thing. -/
def work : Work → Flow → Flow
  | .read most => read most
  | .write most => write most
  | .flush failure => flush failure

/-- More bytes get ready, unless the source has ended. -/
def feed (bs : Bytes) (f : Flow) : Flow :=
  if f.ending.isSome then f else { f with ready := f.ready ++ bs }

/-- The source ends, if it has not ended before. -/
def finish (ending : StreamEnd) (f : Flow) : Flow :=
  if f.ending.isSome then f else { f with ending := some ending }

/-- From now on nothing can be written to the sink. -/
def obstruct (e : TransportError) (f : Flow) : Flow :=
  { f with sink := { f.sink with failure := some e } }

/-- Shut the writing side of the sink down. -/
def shutDown (f : Flow) : Flow :=
  { f with shut := true }

end Flow

/-- The two ends of a relay. -/
inductive Side where
  | client
  | remote
  deriving DecidableEq, Repr

/-- The other end. -/
def Side.other : Side → Side
  | .client => .remote
  | .remote => .client

/-- Which flow takes a turn, and what it does. -/
structure Turn where
  source : Side
  work : Work
  deriving DecidableEq, Repr

namespace Relay

/-- How far a relay has come. -/
inductive Phase where
  | copying
  /-- One of the flows has stopped, and the writing side toward this end is shut down next. -/
  | shutting (toward : Side)
  | ended
  deriving DecidableEq, Repr

/-- What can happen while there is a relay. -/
inductive Event where
  | turn (t : Turn)
  /-- An end sends some bytes. -/
  | arrive (source : Side) (bs : Bytes)
  /-- An end sends nothing more. -/
  | finish (source : Side) (ending : StreamEnd)
  /-- An end does not take any bytes from now on. -/
  | obstruct (toward : Side) (e : TransportError)
  deriving DecidableEq, Repr

end Relay

/-- A relay between a client and the place it asked for. -/
structure Relay where
  /-- From the client to the other end. -/
  fromClient : Flow := {}
  /-- From the other end to the client. -/
  fromRemote : Flow := {}
  phase : Relay.Phase := .copying
  deriving DecidableEq, Repr

namespace Relay

/-- The flow that begins at one end. -/
def flow (r : Relay) : Side → Flow
  | .client => r.fromClient
  | .remote => r.fromRemote

/-- Change the flow that begins at one end. -/
def updateFlow (r : Relay) (source : Side) (f : Flow → Flow) : Relay :=
  match source with
  | .client => { r with fromClient := f r.fromClient }
  | .remote => { r with fromRemote := f r.fromRemote }

/-- Whether one of the flows has stopped. -/
def isOver (r : Relay) : Bool :=
  r.phase ≠ .copying

/-- One turn.  When the flows are done with, it shuts down what is next to be shut down. -/
def step (r : Relay) (t : Turn) : Relay :=
  match r.phase with
  | .copying =>
    let r := r.updateFlow t.source (Flow.work t.work)
    if (r.flow t.source).stopped.isSome then { r with phase := .shutting .remote } else r
  | .shutting .remote => { r.updateFlow .client Flow.shutDown with phase := .shutting .client }
  | .shutting .client => { r.updateFlow .remote Flow.shutDown with phase := .ended }
  | .ended => r

/-- Let something happen. -/
def perform (r : Relay) : Event → Relay
  | .turn t => r.step t
  | .arrive source bs => r.updateFlow source (Flow.feed bs)
  | .finish source ending => r.updateFlow source (Flow.finish ending)
  | .obstruct toward e => r.updateFlow toward.other (Flow.obstruct e)

/-- Let many things happen, one after the other. -/
def run (r : Relay) (events : List Event) : Relay :=
  events.foldl perform r

/-- Turns in which a flow copies everything that is ready and notices an end that is there. -/
def drainingTurns (r : Relay) (source : Side) : List Event :=
  let f := r.flow source
  [.read f.ready.length, .write (f.held.length + f.ready.length), .read 0, .flush none].map
    fun work => .turn ⟨source, work⟩

/-- Turns in which both sinks are shut down if a flow has stopped; otherwise nothing is done. -/
def closingTurns : List Event :=
  List.replicate 2 (.turn ⟨.client, .read 0⟩)

/-- Copy everything that is ready. -/
def settle (r : Relay) : Relay :=
  r.run (r.drainingTurns .client ++ r.drainingTurns .remote ++ closingTurns)

/-- What has been delivered to one end. -/
def delivered (r : Relay) (s : Side) : Bytes :=
  (r.flow s.other).sink.written

end Relay
end HttpServer
