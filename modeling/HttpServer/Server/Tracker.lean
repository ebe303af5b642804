/-!
# Trackers — how many connections are active, and whether the server shuts down

A tracker counts the guards that connections hold, and carries the shutdown twice: as a flag that can be
tested, and as a signal that can be waited for.  Every operation here is one indivisible step; what takes two
steps, such as dropping the last guard and then waking those who wait, is a sequence of them, so that all
orders in which several parties take their steps can be spoken of.

A party that waits for the tracker to become idle first notes how often waiters have been woken, then looks
at the count, and only then goes to sleep.  A waking that falls between the look and the sleep is therefore
not missed.
-/

namespace HttpServer

/-- A value that can be watched: who has seen an older version learns that there is a newer one. -/
structure Signal where
  value : Bool := false
  version : Nat := 0
  deriving DecidableEq, Repr

/-- Replace the value. -/
def Signal.replace (value : Bool) (s : Signal) : Signal :=
  { value, version := s.version + 1 }

/-- Whether the value was replaced since version `seen`. -/
def Signal.hasChanged (seen : Nat) (s : Signal) : Bool :=
  s.version != seen

/-- The state that all connections of a server share. -/
structure Tracker where
  /-- The guards that are held. -/
  active : Nat := 0
  shuttingDown : Bool := false
  signal : Signal := {}
  /-- How often those who wait were woken. -/
  wakings : Nat := 0
  deriving DecidableEq, Repr

namespace Tracker

/-- Count one more guard. -/
def track (t : Tracker) : Tracker :=
  { t with active := t.active + 1 }

/-- Count one guard less; the answer says whether it was the last. -/
def untrack (t : Tracker) : Bool × Tracker :=
  (t.active == 1, { t with active := t.active - 1 })

/-- Wake all who wait. -/
def wake (t : Tracker) : Tracker :=
  { t with wakings := t.wakings + 1 }

/-- Set the flag, the first step of a shutdown. -/
def raiseFlag (t : Tracker) : Tracker :=
  { t with shuttingDown := true }

/-- Send the signal, the second step of a shutdown. -/
def sendSignal (t : Tracker) : Tracker :=
  { t with signal := t.signal.replace true }

/-- Start a shutdown, in one go. -/
def startShutdown (t : Tracker) : Tracker :=
  t.raiseFlag.sendSignal

end Tracker

/-- The guard of one connection. -/
inductive Guard where
  | held
  /-- The guard is no longer counted; if it was the last, those who wait are still to be woken. -/
  | leaving (wasLast : Bool)
  | gone
  deriving DecidableEq, Repr

/-- The next step of dropping a guard. -/
def Guard.drop (t : Tracker) : Guard → Tracker × Guard
  | .held => (t.untrack.2, .leaving t.untrack.1)
  | .leaving wasLast => (if wasLast then t.wake else t, .gone)
  | .gone => (t, .gone)

/-- Drop a guard that is held, in one go. -/
def Tracker.release (t : Tracker) : Tracker :=
  let (t, guard) := Guard.held.drop t
  (guard.drop t).1

/-- Someone who waits for the tracker to become idle. -/
inductive Waiter where
  | beginning
  /-- The wakings so far are noted, and the count is looked at next. -/
  | watching (noted : Nat)
  /-- Asleep until there is a waking behind those that were noted. -/
  | asleep (noted : Nat)
  | finished
  deriving DecidableEq, Repr

/-- The next step of waiting; a sleeper who was not woken stays where he is. -/
def Waiter.step (t : Tracker) : Waiter → Waiter
  | .beginning => .watching t.wakings
  | .watching noted => if t.active = 0 then .finished else .asleep noted
  | .asleep noted => if noted < t.wakings then .beginning else .asleep noted
  | .finished => .finished

/-- A tracker with all its guards and all who wait. -/
structure Crowd where
  tracker : Tracker := {}
  guards : List Guard := []
  waiters : List Waiter := []
  deriving DecidableEq, Repr

/-- What can happen to a crowd. -/
inductive CrowdAction where
  | track
  /-- The next step of dropping a guard. -/
  | drop (guard : Nat)
  /-- Someone begins to wait. -/
  | wait
  /-- The next step of one who waits. -/
  | advance (waiter : Nat)
  deriving DecidableEq, Repr

namespace Crowd

/-- One step; one of a guard or waiter that is not there changes nothing. -/
def step (c : Crowd) (a : CrowdAction) : Crowd :=
  match a with
  | .track => { c with tracker := c.tracker.track, guards := c.guards ++ [.held] }
  | .drop i =>
    match c.guards[i]? with
    | none => c
    | some guard =>
      let (tracker, guard) := guard.drop c.tracker
      { c with tracker, guards := c.guards.set i guard }
  | .wait => { c with waiters := c.waiters ++ [.beginning] }
  | .advance i =>
    match c.waiters[i]? with
    | none => c
    | some waiter => { c with waiters := c.waiters.set i (waiter.step c.tracker) }

/-- Many steps, in any order. -/
def run (c : Crowd) (actions : List CrowdAction) : Crowd :=
  actions.foldl step c

/-- How many guards are counted. -/
def held (c : Crowd) : Nat :=
  c.guards.count .held

end Crowd
end HttpServer
