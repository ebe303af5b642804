import HttpServer.Server.Tracker

/-!
# Lifecycles — a server, its sessions and those who shut it down

The parties of a running server share a tracker and nothing else: the loop that accepts connections, one
session for each of them, and everyone who asks for a shutdown.  Here is what each of them does, step by
step, with the bytes left out: what matters is when the flag is tested, when the signal is seen, when a
handler runs and when a guard is dropped.

Every step is indivisible, and the steps of different parties come in any order (`System.run`).  Where a party
waits for two things at once, or where its work can turn out in several ways, the choice is part of the
action; an action that is not possible in a state has no next state.

* The accept loop tests the flag, and then waits for a connection or for the signal.
* A session subscribes to the signal, tests the flag, and then waits for a request or for the signal.  Only
  behind that test does it read and call the handler.
* A shutdown sets the flag and then sends the signal.  A graceful one also waits until no guard is held.
-/

namespace HttpServer

/-- How a step turns out. -/
inductive Choice where
  /-- The work at hand is done. -/
  | proceed
  /-- The signal came first. -/
  | signalled
  /-- The work at hand came to nothing. -/
  | fail
  /-- The handler takes the connection over. -/
  | takeOver
  deriving DecidableEq, Repr

/-- Where the accept loop is. -/
inductive AcceptPhase where
  | subscribing
  /-- About to test the flag. -/
  | testing
  /-- Waiting for a connection or the signal. -/
  | waiting
  /-- With a connection that is not counted yet. -/
  | accepted
  /-- With a connection that is counted and has no session yet. -/
  | tracked
  | ended
  deriving DecidableEq, Repr

/-- The accept loop, and the version of the signal that it has seen. -/
structure AcceptLoop where
  phase : AcceptPhase := .subscribing
  seen : Nat := 0
  deriving DecidableEq, Repr

/-- Where a session is. -/
inductive SessionPhase where
  | subscribing
  /-- About to test the flag. -/
  | testing
  /-- Waiting for a request or the signal. -/
  | waiting
  | reading
  /-- The handler is running. -/
  | handling
  /-- Writing a response; the flag says whether the connection is taken over behind it. -/
  | writing (takeOver : Bool)
  /-- A hijacker is running. -/
  | hijacked
  /-- Closing the connection. -/
  | closing
  /-- Dropping the guard. -/
  | leaving (guard : Guard)
  deriving DecidableEq, Repr

/-- A session, the version of the signal that it has seen, and how many handler calls it has begun. -/
structure SessionState where
  phase : SessionPhase := .subscribing
  seen : Nat := 0
  calls : Nat := 0
  deriving DecidableEq, Repr

/-- Where someone who asks for a shutdown is. -/
inductive ShutdownPhase where
  | beginning
  /-- The flag is set, and the signal is not sent yet. -/
  | flagRaised
  /-- Waiting until no guard is held. -/
  | draining (waiter : Waiter)
  /-- Back with an answer: whether no guard was held. -/
  | returned (drained : Bool)
  deriving DecidableEq, Repr

/-- Someone who asks for a shutdown. -/
structure ShutdownCall where
  /-- Whether he waits for the sessions to end. -/
  graceful : Bool
  phase : ShutdownPhase := .beginning
  deriving DecidableEq, Repr

/-- A running server. -/
structure System where
  tracker : Tracker := {}
  acceptLoop : AcceptLoop := {}
  sessions : List SessionState := []
  shutdowns : List ShutdownCall := []
  deriving DecidableEq, Repr

/-- One step of the accept loop; the last component is a session if one is spawned. -/
def AcceptLoop.step (t : Tracker) (a : AcceptLoop) (choice : Choice) :
    Option (Tracker × AcceptLoop × Option SessionState) :=
  match a.phase, choice with
  | .subscribing, .proceed => some (t, { phase := .testing, seen := t.signal.version }, none)
  | .testing, .proceed =>
    some (t, { a with phase := if t.shuttingDown then .ended else .waiting }, none)
  | .waiting, .proceed => some (t, { a with phase := .accepted }, none)
  | .waiting, .fail => some (t, { a with phase := .testing }, none)
  | .waiting, .signalled =>
    if t.signal.hasChanged a.seen then
      some (t, { phase := .testing, seen := t.signal.version }, none)
    else none
  | .accepted, .proceed => some (t.track, { a with phase := .tracked }, none)
  | .accepted, .fail => some (t, { a with phase := .testing }, none)
  | .tracked, .proceed => some (t, { a with phase := .testing }, some {})
  | _, _ => none

/-- One step of a session. -/
def SessionState.step (t : Tracker) (s : SessionState) (choice : Choice) :
    Option (Tracker × SessionState) :=
  match s.phase, choice with
  | .subscribing, .proceed => some (t, { s with phase := .testing, seen := t.signal.version })
  | .testing, .proceed => some (t, { s with phase := if t.shuttingDown then .closing else .waiting })
  | .waiting, .proceed => some (t, { s with phase := .reading })
  | .waiting, .fail => some (t, { s with phase := .closing })
  | .waiting, .signalled =>
    if t.signal.hasChanged s.seen then
      some (t, { s with phase := .closing, seen := t.signal.version })
    else none
  | .reading, .proceed => some (t, { s with phase := .handling, calls := s.calls + 1 })
  | .reading, .fail => some (t, { s with phase := .closing })
  | .handling, .proceed => some (t, { s with phase := .writing false })
  | .handling, .takeOver => some (t, { s with phase := .writing true })
  | .handling, .fail => some (t, { s with phase := .closing })
  | .writing true, .proceed => some (t, { s with phase := .hijacked })
  | .writing false, .proceed => some (t, { s with phase := .testing })
  | .writing _, .fail => some (t, { s with phase := .closing })
  | .hijacked, .proceed => some (t, { s with phase := .leaving .held })
  | .closing, .proceed => some (t, { s with phase := .leaving .held })
  | .leaving .gone, _ => none
  | .leaving guard, .proceed =>
    let (t, guard) := guard.drop t
    some (t, { s with phase := .leaving guard })
  | _, _ => none

/-- Whether a session runs application code. -/
def SessionState.isBusy (s : SessionState) : Bool :=
  s.phase == .handling || s.phase == .hijacked

/-- One step of a shutdown; a graceful one may give up while it waits. -/
def ShutdownCall.step (t : Tracker) (s : ShutdownCall) (choice : Choice) :
    Option (Tracker × ShutdownCall) :=
  match s.phase, choice with
  | .beginning, .proceed => some (t.raiseFlag, { s with phase := .flagRaised })
  | .flagRaised, .proceed =>
    some (t.sendSignal,
      { s with phase := if s.graceful then .draining .beginning else .returned false })
  | .draining .finished, .proceed => some (t, { s with phase := .returned true })
  | .draining waiter, .proceed => some (t, { s with phase := .draining (waiter.step t) })
  | .draining _, .fail => some (t, { s with phase := .returned false })
  | _, _ => none

/-- What can happen to a running server. -/
inductive Action where
  | accept (choice : Choice)
  | session (index : Nat) (choice : Choice)
  /-- Someone asks for a shutdown. -/
  | askShutdown (graceful : Bool)
  | shutdown (index : Nat) (choice : Choice)
  deriving DecidableEq, Repr

namespace System

/-- One step of one party, if it is possible. -/
def step (s : System) (a : Action) : Option System :=
  match a with
  | .accept choice => do
    let (tracker, acceptLoop, spawned) ← s.acceptLoop.step s.tracker choice
    return { s with tracker, acceptLoop, sessions := s.sessions ++ spawned.toList }
  | .session i choice => do
    let session ← s.sessions[i]?
    let (tracker, session) ← session.step s.tracker choice
    return { s with tracker, sessions := s.sessions.set i session }
  | .askShutdown graceful => some { s with shutdowns := s.shutdowns ++ [{ graceful }] }
  | .shutdown i choice => do
    let call ← s.shutdowns[i]?
    let (tracker, call) ← call.step s.tracker choice
    return { s with tracker, shutdowns := s.shutdowns.set i call }

/-- Many steps, in any order, if all of them are possible. -/
def run (s : System) : List Action → Option System
  | [] => some s
  | a :: actions => (s.step a).bind fun s => s.run actions

/-- The states that a server can come to. -/
def Reachable (s : System) : Prop :=
  ∃ actions, run {} actions = some s

/-- Whether some graceful shutdown has answered that no guard is held. -/
def hasDrained (s : System) : Bool :=
  s.shutdowns.any fun c => c.phase == .returned true

end System
end HttpServer
