import HttpServer.Tunnel.Relay
import Mathlib.Data.List.Induction

/-!
# What a relay delivers

A history of a relay is a list of events: bytes arrive at either end, an end finishes, sinks begin to fail, and the
flows take turns, all in any order.  What an end has sent and how it has finished is read off the history alone
(`Relay.sent`, `Relay.ending?`).

Behind every history the bytes delivered to one end are a prefix of those taken from the other one, and these are a
prefix of what that end has sent; a flow that has stopped cleanly has delivered all of it; when the relay has ended,
both sinks are shut down, and before one flow has stopped neither is (`Relay.run_delivers`).  For a flow this is
`Flow.Sound`, which is kept by whatever a flow does and by whatever happens to it; `Relay.Sound` adds what the phase
tells about the two flows.

That a relay comes to its clean end is `Relay.run_drainingTurns`: behind any history, if one end has finished cleanly
and the other one still takes bytes, a few turns of that flow end the relay.  A relay that copies all it can whenever
bytes have arrived holds nothing back between two events (`Relay.settle_arrive`).
-/

namespace HttpServer

/-! ## Sides and flows -/

@[simp]
theorem Side.other_other (s : Side) : s.other.other = s := by
  cases s <;> rfl

namespace Relay

theorem flow_updateFlow (r : Relay) (s t : Side) (f : Flow → Flow) :
    (r.updateFlow t f).flow s = if t = s then f (r.flow s) else r.flow s := by
  cases s <;> cases t <;> rfl

@[simp]
theorem flow_updateFlow_self (r : Relay) (s : Side) (f : Flow → Flow) :
    (r.updateFlow s f).flow s = f (r.flow s) := by
  rw [flow_updateFlow, if_pos rfl]

@[simp]
theorem phase_updateFlow (r : Relay) (s : Side) (f : Flow → Flow) : (r.updateFlow s f).phase = r.phase := by
  cases s <;> rfl

@[simp]
theorem flow_withPhase (r : Relay) (s : Side) (phase : Phase) : ({ r with phase } : Relay).flow s = r.flow s := by
  cases s <;> rfl

theorem isOver_iff {r : Relay} : r.isOver = true ↔ r.phase ≠ .copying := by
  simp [isOver]

theorem run_append (r : Relay) (events more : List Event) : r.run (events ++ more) = (r.run events).run more :=
  List.foldl_append

theorem run_concat (r : Relay) (events : List Event) (e : Event) :
    r.run (events ++ [e]) = (r.run events).perform e := by
  rw [run_append]
  rfl

/-! ## What the ends do -/

/-- The bytes that arrive at one end. -/
def Event.bytes (s : Side) : Event → Bytes
  | .arrive source bs => if source = s then bs else []
  | _ => []

/-- How one end finishes. -/
def Event.ending? (s : Side) : Event → Option StreamEnd
  | .finish source ending => if source = s then some ending else none
  | _ => none

def Event.isTurn : Event → Bool
  | .turn _ => true
  | _ => false

/-- How one end has finished; only the first time counts. -/
def ending? (s : Side) (events : List Event) : Option StreamEnd :=
  events.findSome? (Event.ending? s)

/-- What one end has sent before it finished. -/
def sent (s : Side) (events : List Event) : Bytes :=
  (events.takeWhile fun e => (e.ending? s).isNone).flatMap (Event.bytes s)

/-- How many turns there are. -/
def turns (events : List Event) : Nat :=
  events.countP Event.isTurn

theorem ending?_concat (s : Side) (events : List Event) (e : Event) :
    ending? s (events ++ [e]) = (ending? s events).or (e.ending? s) := by
  simp [ending?, List.findSome?_append]

/-- Behind the end of a source nothing counts that it sends. -/
theorem sent_append (s : Side) (events more : List Event) :
    sent s (events ++ more) = sent s events ++ if (ending? s events).isSome then [] else sent s more := by
  induction events with
  | nil => simp [sent, ending?]
  | cons e events ih =>
    cases hEnding : e.ending? s with
    | some ending => simp [sent, ending?, hEnding]
    | none => simpa [sent, ending?, hEnding] using ih

theorem sent_singleton (s : Side) (e : Event) : sent s [e] = e.bytes s := by
  cases e with
  | finish source ending => by_cases hSource : source = s <;> simp [sent, Event.ending?, Event.bytes, hSource]
  | turn | arrive | obstruct => simp [sent, Event.ending?, Event.bytes]

end Relay

/-! ## One flow -/

/-- The source of the flow has sent `bs` and then finished with `ending`: the flow has taken bytes off the front, what
it took is what it wrote and what it holds, and it stops cleanly only behind all of it. -/
structure Flow.Sound (f : Flow) (bs : Bytes) (ending : Option StreamEnd) : Prop where
  source : f.taken ++ f.ready = bs
  ends : f.ending = ending
  accounted : f.taken = f.sink.written ++ f.held
  drained : f.drained = true → f.ending = some .closed ∧ f.ready = []
  stopped : f.stopped = some .closed → f.drained = true ∧ f.held = []

namespace Flow.Sound

variable {f : Flow} {bs : Bytes} {ending : Option StreamEnd}

theorem read (h : f.Sound bs ending) (hStopped : f.stopped = none) (n : Nat) : (f.read n).Sound bs ending := by
  unfold Flow.read
  split
  · rename_i hReady
    have hReady : f.ready = [] := List.isEmpty_iff.mp hReady
    split
    · exact h
    · rename_i hEnding
      exact { h with drained := fun _ => ⟨hEnding, hReady⟩, stopped := by simp [hStopped] }
    · exact { h with stopped := by simp }
  · rename_i hReady
    have hDrained : f.drained = false := by
      cases hDrained : f.drained with
      | false => rfl
      | true => exact absurd (List.isEmpty_iff.mpr (h.drained hDrained).2) hReady
    refine ⟨?_, h.ends, ?_, by simp [hDrained], by simp [hStopped]⟩
    · rw [List.append_assoc, List.take_append_drop, h.source]
    · rw [h.accounted, List.append_assoc]

theorem write (h : f.Sound bs ending) (hStopped : f.stopped = none) (n : Nat) : (f.write n).Sound bs ending := by
  unfold Flow.write
  split
  · exact h
  · split
    · exact { h with stopped := by simp }
    · rename_i sink hWrite
      refine { h with accounted := ?_, stopped := by simp [hStopped] }
      rw [Outbound.written_of_write hWrite, List.append_assoc, List.take_append_drop, h.accounted]

theorem flush (h : f.Sound bs ending) (failure : Option TransportError) : (f.flush failure).Sound bs ending := by
  unfold Flow.flush
  split
  · exact { h with stopped := by simp }
  · split
    · rename_i hDone
      rw [Bool.and_eq_true, List.isEmpty_iff] at hDone
      exact { h with stopped := fun _ => hDone }
    · exact h

theorem work (h : f.Sound bs ending) (hStopped : f.stopped = none) (w : Work) : (f.work w).Sound bs ending := by
  cases w with
  | read n => exact h.read hStopped n
  | write n => exact h.write hStopped n
  | flush failure => exact h.flush failure

theorem feed (h : f.Sound bs ending) (more : Bytes) :
    (f.feed more).Sound (bs ++ if ending.isSome then [] else more) ending := by
  unfold Flow.feed
  rw [← h.ends]
  split
  · rw [List.append_nil]
    exact { h with ends := rfl }
  · rename_i hEnding
    refine { h with source := ?_, ends := rfl, drained := fun hDrained => ?_ }
    · rw [← List.append_assoc, h.source]
    · simp [(h.drained hDrained).1] at hEnding

theorem finish (h : f.Sound bs ending) (later : StreamEnd) :
    (f.finish later).Sound bs (ending.or (some later)) := by
  unfold Flow.finish
  rw [← h.ends]
  split
  · rename_i hEnding
    rw [Option.or_of_isSome hEnding]
    exact { h with ends := rfl }
  · rename_i hEnding
    have hNone : f.ending = none := by simpa using hEnding
    refine { h with ends := by simp [hNone], drained := fun hDrained => ?_ }
    simp [(h.drained hDrained).1] at hNone

theorem obstruct (h : f.Sound bs ending) (e : TransportError) : (f.obstruct e).Sound bs ending :=
  ⟨h.source, h.ends, h.accounted, h.drained, h.stopped⟩

theorem shutDown (h : f.Sound bs ending) : f.shutDown.Sound bs ending :=
  ⟨h.source, h.ends, h.accounted, h.drained, h.stopped⟩

/-- What was written comes first in what was taken. -/
theorem written_prefix (h : f.Sound bs ending) : f.sink.written <+: f.taken :=
  ⟨f.held, h.accounted.symm⟩

/-- What was taken comes first in what was sent. -/
theorem taken_prefix (h : f.Sound bs ending) : f.taken <+: bs :=
  ⟨f.ready, h.source⟩

/-- A flow that has stopped cleanly has written everything. -/
theorem written_of_stopped (h : f.Sound bs ending) (hStopped : f.stopped = some .closed) :
    ending = some .closed ∧ f.sink.written = bs := by
  obtain ⟨hDrained, hHeld⟩ := h.stopped hStopped
  obtain ⟨hEnding, hReady⟩ := h.drained hDrained
  refine ⟨h.ends ▸ hEnding, ?_⟩
  rw [← h.source, h.accounted, hHeld, hReady, List.append_nil, List.append_nil]

end Flow.Sound

namespace Flow

variable {f : Flow}

/-- Two flows that have stopped alike and have written the same. -/
structure SameOutcome (f g : Flow) : Prop where
  stopped : f.stopped = g.stopped
  written : f.sink.written = g.sink.written

theorem SameOutcome.trans {f g h : Flow} (hfg : f.SameOutcome g) (hgh : g.SameOutcome h) : f.SameOutcome h :=
  ⟨hfg.stopped.trans hgh.stopped, hfg.written.trans hgh.written⟩

/-- Two flows whose sinks are also shut down alike. -/
structure SameCourse (f g : Flow) : Prop extends f.SameOutcome g where
  shut : f.shut = g.shut

theorem SameCourse.refl (f : Flow) : f.SameCourse f :=
  ⟨⟨rfl, rfl⟩, rfl⟩

theorem sameCourse_feed (f : Flow) (bs : Bytes) : (f.feed bs).SameCourse f := by
  unfold feed
  split <;> exact ⟨⟨rfl, rfl⟩, rfl⟩

theorem sameCourse_finish (f : Flow) (ending : StreamEnd) : (f.finish ending).SameCourse f := by
  unfold finish
  split <;> exact ⟨⟨rfl, rfl⟩, rfl⟩

theorem sameCourse_obstruct (f : Flow) (e : TransportError) : (f.obstruct e).SameCourse f :=
  ⟨⟨rfl, rfl⟩, rfl⟩

@[simp]
theorem shut_work (f : Flow) (w : Work) : (f.work w).shut = f.shut := by
  cases w <;> simp only [work, read, write, flush] <;> split <;> (try split) <;> rfl

/-- Everything that is ready can be taken at once. -/
theorem read_all (hEnding : f.ending = some .closed) :
    (f.read f.ready.length).ready = [] ∧ (f.read f.ready.length).ending = some .closed ∧
      (f.read f.ready.length).held.length = f.held.length + f.ready.length ∧
      (f.read f.ready.length).sink = f.sink ∧ (f.read f.ready.length).stopped = f.stopped := by
  unfold read
  split
  · rename_i hReady
    have hReady : f.ready = [] := List.isEmpty_iff.mp hReady
    simp [hEnding, hReady]
  · simp [hEnding]

/-- Everything that is held can be written at once. -/
theorem write_all {n : Nat} (hSink : f.sink.failure = none) (hHeld : f.held.length = n) :
    (f.write n).held = [] ∧ (f.write n).ready = f.ready ∧ (f.write n).ending = f.ending ∧
      (f.write n).stopped = f.stopped := by
  subst hHeld
  unfold write
  split
  · rename_i hHeld
    simpa using hHeld
  · simp [Outbound.write, hSink]

/-- When the source has ended cleanly and nothing is held, the flow stops cleanly. -/
theorem flush_read (hHeld : f.held = []) (hReady : f.ready = []) (hEnding : f.ending = some .closed) (n : Nat) :
    (f.read n).stopped = f.stopped ∧ ((f.read n).flush none).stopped = some .closed := by
  simp [read, flush, hHeld, hReady, hEnding]

end Flow

/-! ## Both flows -/

namespace Relay

variable {r : Relay} {s : Side} {events more : List Event} {e : Event}

/-- Whether the sink toward one end is shut down already. -/
def Phase.hasShut (toward : Side) : Phase → Bool
  | .copying | .shutting .remote => false
  | .shutting .client => toward = .remote
  | .ended => true

/-- How many turns are left for shutting down, when a flow has stopped. -/
def Phase.left : Phase → Nat
  | .copying => 3
  | .shutting .remote => 2
  | .shutting .client => 1
  | .ended => 0

/-- The phase tells whether a flow has stopped, which is one only, and what is shut down. -/
structure Staged (r : Relay) : Prop where
  running : r.phase = .copying → ∀ s, (r.flow s).stopped = none
  decided : r.phase ≠ .copying → ∃ s, (r.flow s).stopped.isSome ∧ (r.flow s.other).stopped = none
  shut : ∀ s, (r.flow s).shut = r.phase.hasShut s.other

/-- What holds of a relay behind a history. -/
structure Sound (r : Relay) (events : List Event) : Prop extends r.Staged where
  copies : ∀ s, (r.flow s).Sound (sent s events) (ending? s events)

/-- What happens at the ends leaves the relay where it is. -/
theorem phase_perform (r : Relay) (hTurn : e.isTurn = false) : (r.perform e).phase = r.phase := by
  cases e with
  | turn => cases hTurn
  | arrive | finish | obstruct => exact phase_updateFlow ..

theorem sameCourse_updateFlow (r : Relay) (s t : Side) {f : Flow → Flow} (hf : ∀ g, (f g).SameCourse g) :
    ((r.updateFlow t f).flow s).SameCourse (r.flow s) := by
  rw [flow_updateFlow]
  split
  · exact hf _
  · exact .refl _

theorem sameCourse_perform (r : Relay) (s : Side) (hTurn : e.isTurn = false) :
    ((r.perform e).flow s).SameCourse (r.flow s) := by
  cases e with
  | turn => cases hTurn
  | arrive source bs => exact sameCourse_updateFlow r s source (Flow.sameCourse_feed · bs)
  | finish source ending => exact sameCourse_updateFlow r s source (Flow.sameCourse_finish · ending)
  | obstruct toward e => exact sameCourse_updateFlow r s toward.other (Flow.sameCourse_obstruct · e)

/-- What a turn can do to a flow. -/
theorem flow_step_cases (r : Relay) (s : Side) (t : Turn) :
    (r.phase = .copying ∧ (r.step t).flow s = (r.flow s).work t.work) ∨
      (r.step t).flow s = (r.flow s).shutDown ∨ (r.step t).flow s = r.flow s := by
  unfold step
  split
  · rename_i hPhase
    by_cases hSource : t.source = s
    · left
      refine ⟨hPhase, ?_⟩
      dsimp only
      split <;> simp [hSource]
    · right; right
      dsimp only
      split <;> simp [flow_updateFlow, hSource]
  · cases s
    · exact .inr (.inl rfl)
    · exact .inr (.inr rfl)
  · cases s
    · exact .inr (.inr rfl)
    · exact .inr (.inl rfl)
  · exact .inr (.inr rfl)

/-- A turn in which the flow does not stop changes nothing else. -/
theorem step_of_stopped_eq_none (w : Work) (hPhase : r.phase = .copying)
    (hStopped : ((r.flow s).work w).stopped = none) : r.step ⟨s, w⟩ = r.updateFlow s (Flow.work w) := by
  simp [step, hPhase, hStopped]

/-- A turn in which the flow stops is the last one that copies. -/
theorem step_of_stopped_eq_some (w : Work) {ending : StreamEnd} (hPhase : r.phase = .copying)
    (hStopped : ((r.flow s).work w).stopped = some ending) :
    r.step ⟨s, w⟩ = { r.updateFlow s (Flow.work w) with phase := .shutting .remote } := by
  simp [step, hPhase, hStopped]

/-- When a flow has stopped, a turn writes nothing and brings the relay nearer to its end. -/
theorem step_of_isOver (hOver : r.isOver = true) (t : Turn) :
    (r.step t).isOver = true ∧ (r.step t).phase.left = r.phase.left - 1 ∧
      ∀ s, ((r.step t).flow s).SameOutcome (r.flow s) := by
  obtain ⟨client, remote, phase⟩ := r
  cases phase with
  | copying => simp [isOver] at hOver
  | shutting toward => cases toward <;> exact ⟨rfl, rfl, fun s => by cases s <;> exact ⟨rfl, rfl⟩⟩
  | ended => exact ⟨rfl, rfl, fun _ => ⟨rfl, rfl⟩⟩

theorem perform_of_isOver (hOver : r.isOver = true) (e : Event) :
    (r.perform e).isOver = true ∧ (r.perform e).phase.left = r.phase.left - turns [e] ∧
      ∀ s, ((r.perform e).flow s).SameOutcome (r.flow s) := by
  cases hTurn : e.isTurn with
  | false =>
    refine ⟨?_, ?_, fun s => (sameCourse_perform r s hTurn).toSameOutcome⟩
    · rw [isOver, phase_perform r hTurn]
      exact hOver
    · simp [phase_perform r hTurn, turns, hTurn]
  | true =>
    cases e with
    | turn t => exact step_of_isOver hOver t
    | arrive | finish | obstruct => cases hTurn

theorem run_of_isOver (hOver : r.isOver = true) (events : List Event) :
    (r.run events).phase.left = r.phase.left - turns events ∧
      ∀ s, ((r.run events).flow s).SameOutcome (r.flow s) := by
  induction events generalizing r with
  | nil => exact ⟨rfl, fun _ => ⟨rfl, rfl⟩⟩
  | cons e events ih =>
    obtain ⟨hStill, hLeft, hOutcome⟩ := perform_of_isOver hOver e
    obtain ⟨hLeft', hOutcome'⟩ := ih hStill
    refine ⟨?_, fun s => (hOutcome' s).trans (hOutcome s)⟩
    calc ((r.perform e).run events).phase.left
        = r.phase.left - turns [e] - turns events := by rw [hLeft', hLeft]
      _ = r.phase.left - turns (e :: events) := by simp only [turns, List.countP_cons, List.countP_nil]; omega

/-- Two turns behind the end of a flow the relay has ended. -/
theorem phase_run_of_isOver (hOver : r.isOver = true) (hTurns : 2 ≤ turns events) :
    (r.run events).phase = .ended := by
  have hLeft := (run_of_isOver hOver events).1
  have hFew : r.phase.left ≤ 2 := by
    cases hPhase : r.phase with
    | copying => simp [isOver, hPhase] at hOver
    | shutting toward => cases toward <;> decide
    | ended => decide
  have hNone : (r.run events).phase.left = 0 := by omega
  cases hPhase : (r.run events).phase with
  | copying => simp [hPhase, Phase.left] at hNone
  | shutting toward => cases toward <;> simp [hPhase, Phase.left] at hNone
  | ended => rfl

/-! ## Histories -/

namespace Staged

theorem shut_step (h : r.Staged) (t : Turn) (s : Side) :
    ((r.step t).flow s).shut = (r.step t).phase.hasShut s.other := by
  have hShut := h.shut
  obtain ⟨client, remote, phase⟩ := r
  cases phase with
  | copying =>
    have hNone : ((Relay.updateFlow ⟨client, remote, .copying⟩ t.source (Flow.work t.work)).flow s).shut = false := by
      rw [flow_updateFlow]
      split <;> simp [hShut, Phase.hasShut]
    simp only [Relay.step]
    split <;> simp [hNone, Phase.hasShut]
  | shutting toward =>
    cases toward with
    | remote =>
      cases s with
      | client => rfl
      | remote => exact hShut .remote
    | client =>
      cases s with
      | client => exact hShut .client
      | remote => rfl
  | ended => exact hShut s

/-- While both flows are copying, the flow that takes the turn is the only one that can stop. -/
theorem step_of_copying (h : r.Staged) (hPhase : r.phase = .copying) (t : Turn) : (r.step t).Staged := by
  obtain ⟨source, w⟩ := t
  have hOthers (s : Side) (hs : source ≠ s) : ((r.updateFlow source (Flow.work w)).flow s).stopped = none := by
    rw [flow_updateFlow, if_neg hs, h.running hPhase s]
  cases hStopped : ((r.flow source).work w).stopped with
  | none =>
    have hStep := step_of_stopped_eq_none w hPhase hStopped
    refine ⟨fun _ s => ?_, fun hOver => ?_, h.shut_step _⟩
    · rw [hStep]
      by_cases hs : source = s
      · subst hs
        simpa using hStopped
      · exact hOthers s hs
    · exact absurd (by rw [hStep, phase_updateFlow, hPhase]) hOver
  | some ending =>
    have hStep := step_of_stopped_eq_some w hPhase hStopped
    refine ⟨fun hCopying => ?_, fun _ => ⟨source, ?_, ?_⟩, h.shut_step _⟩
    · simp [hStep] at hCopying
    · simp [hStep, hStopped]
    · simpa [hStep] using hOthers source.other (by cases source <;> decide)

theorem step (h : r.Staged) (t : Turn) : (r.step t).Staged := by
  by_cases hPhase : r.phase = .copying
  · exact h.step_of_copying hPhase t
  obtain ⟨hStill, -, hOutcome⟩ := step_of_isOver (isOver_iff.mpr hPhase) t
  obtain ⟨first, hStopped, hOther⟩ := h.decided hPhase
  refine ⟨fun hCopying => absurd hCopying (isOver_iff.mp hStill), fun _ => ⟨first, ?_, ?_⟩, h.shut_step t⟩
  · rwa [(hOutcome first).stopped]
  · rwa [(hOutcome first.other).stopped]

theorem perform (h : r.Staged) (e : Event) : (r.perform e).Staged := by
  cases hTurn : e.isTurn with
  | true =>
    cases e with
    | turn t => exact h.step t
    | arrive | finish | obstruct => cases hTurn
  | false =>
    have hPhase := phase_perform r hTurn
    have hSame (s : Side) := sameCourse_perform r s hTurn
    constructor
    · intro hCopying s
      rw [(hSame s).stopped]
      exact h.running (hPhase ▸ hCopying) s
    · intro hOver
      simp only [fun s => (hSame s).stopped]
      exact h.decided (hPhase ▸ hOver)
    · intro s
      rw [(hSame s).shut, hPhase, h.shut]

end Staged

theorem sound_start : ({} : Relay).Sound [] where
  copies s := by cases s <;> exact ⟨rfl, rfl, rfl, by simp [flow], by simp [flow]⟩
  running _ s := by cases s <;> rfl
  decided hOver := absurd rfl hOver
  shut s := by cases s <;> rfl

theorem Sound.perform (h : r.Sound events) (e : Event) : (r.perform e).Sound (events ++ [e]) := by
  refine { h.toStaged.perform e with copies := fun s => ?_ }
  have hCopies := h.copies s
  rw [sent_append, sent_singleton, ending?_concat]
  cases e with
  | turn t =>
    simp only [Event.bytes, Event.ending?, ite_self, List.append_nil, Option.or_none]
    obtain ⟨hPhase, hFlow⟩ | hFlow | hFlow := flow_step_cases r s t
    · exact hFlow ▸ hCopies.work (h.running hPhase s) t.work
    · exact hFlow ▸ hCopies.shutDown
    · exact hFlow ▸ hCopies
  | arrive source bs =>
    simp only [Relay.perform, flow_updateFlow, Event.bytes, Event.ending?, Option.or_none]
    split
    · exact hCopies.feed bs
    · simpa using hCopies
  | finish source ending =>
    simp only [Relay.perform, flow_updateFlow, Event.bytes, Event.ending?, ite_self, List.append_nil]
    split
    · exact hCopies.finish ending
    · simpa using hCopies
  | obstruct toward e =>
    simp only [Relay.perform, flow_updateFlow, Event.bytes, Event.ending?, ite_self, List.append_nil, Option.or_none]
    split
    · exact hCopies.obstruct e
    · exact hCopies

/-- The induction is on the end of the history, since `Sound` compares the relay with everything that was sent. -/
theorem sound_run (events : List Event) : (({} : Relay).run events).Sound events := by
  induction events using List.reverseRecOn with
  | nil => exact sound_start
  | append_singleton events e ih =>
    rw [run_concat]
    exact ih.perform e

/-! ## The clean end -/

/-- If an end has finished cleanly and the other one takes what comes from it, then the turns of that flow alone bring
the relay to its end. -/
theorem stopped_run_drainingTurns (hPhase : r.phase = .copying) (hStopped : (r.flow s).stopped = none)
    (hEnding : (r.flow s).ending = some .closed) (hSink : (r.flow s).sink.failure = none) :
    (r.run (r.drainingTurns s)).isOver = true ∧ ((r.run (r.drainingTurns s)).flow s).stopped = some .closed := by
  obtain ⟨hReady₁, hEnding₁, hHeld₁, hSink₁, hStopped₁⟩ := Flow.read_all hEnding
  obtain ⟨hHeld₂, hReady₂, hEnding₂, hStopped₂⟩ := Flow.write_all (hSink₁ ▸ hSink) hHeld₁
  obtain ⟨hStopped₃, hStopped₄⟩ := Flow.flush_read hHeld₂ (hReady₂.trans hReady₁) (hEnding₂.trans hEnding₁) 0
  rw [hStopped] at hStopped₁
  rw [hStopped₁] at hStopped₂
  rw [hStopped₂] at hStopped₃
  simp only [drainingTurns, List.map_cons, List.map_nil, run, List.foldl_cons, List.foldl_nil, perform]
  rw [step_of_stopped_eq_none (.read _) hPhase hStopped₁,
    step_of_stopped_eq_none (.write _) (by simpa using hPhase) (by simpa [Flow.work] using hStopped₂),
    step_of_stopped_eq_none (.read _) (by simpa using hPhase) (by simpa [Flow.work] using hStopped₃),
    step_of_stopped_eq_some (.flush _) (by simpa using hPhase) (by simpa [Flow.work] using hStopped₄)]
  exact ⟨by simp [isOver], by simpa [Flow.work] using hStopped₄⟩

/-- Behind every history, if an end has finished cleanly and the other one takes what comes from it, the relay can end
with everything delivered. -/
theorem run_drainingTurns (events : List Event) (s : Side) :
    let r := ({} : Relay).run events
    r.phase = .copying → ending? s events = some .closed → (r.flow s).sink.failure = none →
      let ended := r.run (r.drainingTurns s ++ closingTurns)
      ended.phase = .ended ∧ (ended.flow s).stopped = some .closed ∧ ended.delivered s.other = sent s events := by
  intro r hPhase hEnding hSink ended
  have hSound : r.Sound events := sound_run events
  obtain ⟨hOver, hStopped⟩ := stopped_run_drainingTurns hPhase (hSound.running hPhase s)
    ((hSound.copies s).ends.trans hEnding) hSink
  have hStopped' : (ended.flow s).stopped = some .closed := by
    rw [← hStopped, ← ((run_of_isOver hOver closingTurns).2 s).stopped, ← run_append]
  have hEnded : ended.Sound (events ++ (r.drainingTurns s ++ closingTurns)) := by
    have hAll := sound_run (events ++ (r.drainingTurns s ++ closingTurns))
    rwa [run_append] at hAll
  refine ⟨?_, hStopped', ?_⟩
  · exact (congrArg Relay.phase (run_append ..)).trans (phase_run_of_isOver hOver (by decide))
  · rw [delivered, Side.other_other, ((hEnded.copies s).written_of_stopped hStopped').2, sent_append, hEnding]
    exact List.append_nil _

/-! ## A new relay for each event -/

/-- What a flow has done that has copied some bytes. -/
def copiedFlow (bs : Bytes) : Flow :=
  if bs = [] then {} else { taken := bs, sink := { writes := [bs] } }

theorem perform_arrive_settle (s : Side) (bs : Bytes) :
    (({} : Relay).perform (.arrive s bs)).settle = ({} : Relay).updateFlow s fun _ => copiedFlow bs := by
  cases s <;> cases bs <;>
    simp [settle, run, perform, drainingTurns, closingTurns, step, updateFlow, flow, Flow.feed, Flow.work, Flow.read,
      Flow.write, Flow.flush, Outbound.write, List.replicate, copiedFlow]

/-- What arrives is delivered at once and nothing is held back, so a relay that goes on may as well begin anew. -/
theorem settle_arrive (s : Side) (bs : Bytes) :
    let r := (({} : Relay).perform (.arrive s bs)).settle
    r.phase = .copying ∧ r.delivered s.other = bs ∧ r.delivered s = [] ∧
      ∀ t, (r.flow t).ready = [] ∧ (r.flow t).held = [] := by
  rw [perform_arrive_settle]
  intro r
  refine ⟨?_, ?_, ?_, fun t => ?_⟩
  · cases s <;> rfl
  · cases s <;> cases bs <;>
      simp [r, delivered, flow, updateFlow, Side.other, copiedFlow, Outbound.written]
  · cases s <;> rfl
  · cases s <;> cases t <;> cases bs <;> exact ⟨rfl, rfl⟩

/-- When an end has finished, nothing more is delivered and both sinks are shut down. -/
theorem settle_finish (s : Side) :
    let r := (({} : Relay).perform (.finish s .closed)).settle
    r.phase = .ended ∧ (∀ t, r.delivered t = []) ∧ ∀ t, (r.flow t).shut = true := by
  intro r
  refine ⟨?_, fun t => ?_, fun t => ?_⟩
  · cases s <;> rfl
  · cases s <;> cases t <;> rfl
  · cases s <;> cases t <;> rfl

/-! ## What is delivered -/

/-- Behind every history of a relay, what was delivered to one end is a prefix of what was taken from the other one, and
that is a prefix of what was sent there.  A flow that has stopped cleanly has delivered everything up to the clean end
of its source.  As soon as one flow has stopped, which one only has, nothing more is delivered whatever happens, and
two turns later the relay has ended; then both sinks are shut down, and while both flows are copying neither is. -/
theorem run_delivers (events : List Event) (s : Side) :
    let r := ({} : Relay).run events
    r.delivered s.other <+: (r.flow s).taken ∧ (r.flow s).taken <+: sent s events ∧
      ((r.flow s).stopped = some .closed → ending? s events = some .closed ∧ r.delivered s.other = sent s events) ∧
      (r.phase = .copying → (r.flow s).stopped = none ∧ (r.flow s).shut = false) ∧
      (r.phase ≠ .copying →
        (∃ first, (r.flow first).stopped.isSome ∧ (r.flow first.other).stopped = none) ∧
          ∀ more, (r.run more).delivered s = r.delivered s ∧ (2 ≤ turns more → (r.run more).phase = .ended)) ∧
      (r.phase = .ended → (r.flow .client).shut = true ∧ (r.flow .remote).shut = true) := by
  intro r
  have hSound : r.Sound events := sound_run events
  have hCopies := hSound.copies s
  refine ⟨?_, hCopies.taken_prefix, ?_, ?_, ?_, ?_⟩
  · simpa [delivered] using hCopies.written_prefix
  · intro hStopped
    simpa [delivered] using hCopies.written_of_stopped hStopped
  · intro hPhase
    exact ⟨hSound.running hPhase s, by rw [hSound.shut, hPhase]; rfl⟩
  · intro hPhase
    have hOver := isOver_iff.mpr hPhase
    refine ⟨hSound.decided hPhase, fun more => ⟨?_, phase_run_of_isOver hOver⟩⟩
    exact ((run_of_isOver hOver more).2 s.other).written
  · intro hPhase
    simp [hSound.shut, hPhase, Phase.hasShut]

/-- The client sends two bytes and finishes while one of the three bytes for it is still held. -/
def cutShort : List Event :=
  [.arrive .client [1, 2], .arrive .remote [7, 8, 9], .turn ⟨.remote, .read 3⟩, .turn ⟨.client, .read 4⟩,
    .turn ⟨.remote, .write 2⟩, .finish .client .closed, .turn ⟨.client, .read 4⟩, .turn ⟨.client, .write 1⟩,
    .turn ⟨.client, .write 1⟩, .turn ⟨.client, .flush none⟩, .turn ⟨.remote, .write 1⟩, .turn ⟨.client, .read 4⟩]

theorem run_delivers_cutShort :
    let r := ({} : Relay).run cutShort
    r.phase = .ended ∧ r.delivered .remote = [1, 2] ∧ r.delivered .client = [7, 8] ∧
      (r.flow .remote).taken = [7, 8, 9] ∧ (r.flow .client).shut = true ∧ (r.flow .remote).shut = true := by
  intro r
  have hPhase : r.phase = .ended := by decide
  obtain ⟨-, -, hAll, -, -, hShut⟩ := run_delivers cutShort .client
  have hDelivered : r.delivered .remote = sent .client cutShort := (hAll (by decide)).2
  exact ⟨hPhase, hDelivered.trans (by decide), by decide, by decide, hShut hPhase⟩

end Relay
end HttpServer
