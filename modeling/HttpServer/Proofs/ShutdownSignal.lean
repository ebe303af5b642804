import HttpServer.Proofs.GracefulShutdown
import Mathlib.Data.List.GetD

/-!
# The signal of a shutdown reaches everybody

A shutdown is said twice, by a flag that is set and by a signal that is sent behind it, and between the two anybody may
come along.  Who waits has subscribed to the signal first and tested the flag behind that.  So a party that waits when
the signal has been sent passed its test before the flag was set, has therefore never seen the signal, and is woken by
it (`System.hasChanged_of_hasSignalled`); a party that comes later is stopped by the flag.

The invariant `System.Watched` says it of the versions of the signal: the first one is sent only behind the flag
(`System.Sound.flag`), nobody has seen a version that is still to come, and who waits has seen none at all.
-/

namespace HttpServer

variable {t t' : Tracker} {choice : Choice}

/-- Whether someone who asks for a shutdown has set the flag and sent the signal. -/
def ShutdownPhase.hasSignalled : ShutdownPhase → Bool
  | .draining _ | .returned _ => true
  | .beginning | .flagRaised => false

/-- Whether a session has passed its test of the flag and has not called the handler since. -/
def SessionPhase.mayCall : SessionPhase → Bool
  | .waiting | .reading => true
  | .subscribing | .testing | .handling | .writing _ | .hijacked | .closing | .leaving _ => false

/-- Whether the accept loop is about to find the flag set, or has found it. -/
def AcceptPhase.isEnding : AcceptPhase → Bool
  | .testing | .ended => true
  | .subscribing | .waiting | .accepted | .tracked => false

/-! ## The parties -/

/-- What is known of someone who has seen the signal up to version `seen`. -/
structure Tracker.Watches (t : Tracker) (seen : Nat) (isWaiting : Prop) : Prop where
  /-- No version that is still to come has been seen. -/
  le : seen ≤ t.signal.version
  /-- Who waits has not seen the signal of a shutdown. -/
  unseen : isWaiting → seen = 0

/-- The signal is sent only behind the flag. -/
def Tracker.IsOrdered (t : Tracker) : Prop :=
  0 < t.signal.version → t.shuttingDown = true

theorem Tracker.Watches.mono {seen : Nat} {isWaiting : Prop} (h : t.Watches seen isWaiting)
    (hVersion : t.signal.version ≤ t'.signal.version) : t'.Watches seen isWaiting :=
  ⟨Nat.le_trans h.le hVersion, h.unseen⟩

/-- Who waits and is woken has been sent the signal, and the flag was set before. -/
theorem Tracker.Watches.flag_of_hasChanged {seen : Nat} {isWaiting : Prop} (h : t.Watches seen isWaiting)
    (hOrder : t.IsOrdered) (hChanged : t.signal.hasChanged seen = true) : t.shuttingDown = true := by
  have hNe : t.signal.version ≠ seen := by simpa [Signal.hasChanged] using hChanged
  have hLe := h.le
  exact hOrder (by omega)

/-- **What the accept loop has seen.**  It subscribes before its first test of the flag, and tests it again behind each
signal. -/
theorem AcceptLoop.watches_of_step {a a' : AcceptLoop} {spawned : Option SessionState}
    (h : a.step t choice = some (t', a', spawned)) (hOrder : t.IsOrdered)
    (hWatches : t.Watches a.seen (a.phase = .waiting)) :
    t'.signal = t.signal ∧ t'.Watches a'.seen (a'.phase = .waiting) := by
  obtain ⟨hLe, hUnseen⟩ := hWatches
  unfold Tracker.IsOrdered at hOrder
  unfold step at h
  split at h
  all_goals grind [Tracker.track, Tracker.Watches]

/-- While the flag is set, the test of it is the last step of the accept loop. -/
theorem AcceptLoop.isEnding_of_step {a a' : AcceptLoop} {spawned : Option SessionState}
    (h : a.step t choice = some (t', a', spawned)) (hFlag : t.shuttingDown = true)
    (hEnding : a.phase.isEnding = true) : a'.phase.isEnding = true ∧ spawned = none := by
  unfold step at h
  split at h
  all_goals grind [AcceptPhase.isEnding]

theorem AcceptLoop.hasChanged_of_signalled {a a' : AcceptLoop} {spawned : Option SessionState}
    (h : a.step t .signalled = some (t', a', spawned)) :
    t.signal.hasChanged a.seen = true ∧ t' = t ∧ a'.phase = .testing := by
  unfold step at h
  split at h
  all_goals grind

/-- A session never sends the signal and never sets the flag. -/
theorem SessionState.signal_of_step {s s' : SessionState} (h : s.step t choice = some (t', s')) :
    t'.signal = t.signal ∧ t'.shuttingDown = t.shuttingDown := by
  by_cases hLeaving : ∃ guard, s.phase = .leaving guard
  · obtain ⟨guard, hPhase⟩ := hLeaving
    obtain ⟨-, rfl, -⟩ := step_leaving hPhase h
    rcases guard with _ | wasLast | _
    · exact ⟨rfl, rfl⟩
    · cases wasLast <;> exact ⟨rfl, rfl⟩
    · exact ⟨rfl, rfl⟩
  · obtain ⟨rfl, -⟩ := step_serving (fun guard hPhase => hLeaving ⟨guard, hPhase⟩) h
    exact ⟨rfl, rfl⟩

/-- **What a session has seen.**  It subscribes before its first test of the flag, and waits only behind a test that
found the flag unset. -/
theorem SessionState.watches_of_step {s s' : SessionState} (h : s.step t choice = some (t', s')) (hOrder : t.IsOrdered)
    (hWatches : t.Watches s.seen (s.phase = .waiting)) : t'.Watches s'.seen (s'.phase = .waiting) := by
  obtain ⟨hLe, hUnseen⟩ := hWatches
  obtain ⟨hSignal, -⟩ := signal_of_step h
  unfold Tracker.IsOrdered at hOrder
  unfold step at h
  split at h
  all_goals grind [Tracker.Watches]

theorem SessionState.hasChanged_of_signalled {s s' : SessionState} (h : s.step t .signalled = some (t', s')) :
    t.signal.hasChanged s.seen = true := by
  unfold step at h
  split at h
  all_goals grind

/-- The handler calls that a session has begun, and the one that it may still begin without testing the flag. -/
def SessionState.budget (s : SessionState) : Nat :=
  s.calls + s.phase.mayCall.toNat

/-- While the flag is set, no step of a session brings it closer to the handler than it was. -/
theorem SessionState.budget_of_step {s s' : SessionState} (h : s.step t choice = some (t', s'))
    (hFlag : t.shuttingDown = true) : s'.budget ≤ s.budget := by
  unfold step at h
  split at h
  all_goals grind [budget, SessionPhase.mayCall]

/-- **What someone who asks for a shutdown does** to the signal: he sends it with his second step. -/
theorem ShutdownCall.signal_of_step {c c' : ShutdownCall} (h : c.step t choice = some (t', c')) :
    (t'.signal = t.signal ∧ c'.phase.hasSignalled = c.phase.hasSignalled) ∨
      (t'.signal.version = t.signal.version + 1 ∧ c'.phase.hasSignalled = true) := by
  unfold step at h
  split at h
  all_goals grind [ShutdownPhase.hasSignalled, Tracker.raiseFlag, Tracker.sendSignal, Signal.replace]

/-! ## The server -/

namespace System

variable {s s' s'' : System} {action : Action} {i : Nat}

/-- Whether somebody has set the flag and sent the signal. -/
def hasSignalled (s : System) : Bool :=
  s.shutdowns.any fun c => c.phase.hasSignalled

/-- What the parties of a server have seen of the signal. -/
structure Watched (s : System) : Prop where
  /-- The signal was sent if somebody is past the second step of a shutdown, and not before. -/
  sent : 0 < s.tracker.signal.version ↔ s.hasSignalled = true
  acceptLoop : s.tracker.Watches s.acceptLoop.seen (s.acceptLoop.phase = .waiting)
  sessions : ∀ session ∈ s.sessions, s.tracker.Watches session.seen (session.phase = .waiting)

theorem watched_empty : Watched {} where
  sent := by decide
  acceptLoop := ⟨Nat.le_refl 0, fun _ => rfl⟩
  sessions := by simp

theorem Sound.flag_of_hasSignalled (h : s.Sound) (hSignalled : s.hasSignalled = true) :
    s.tracker.shuttingDown = true := by
  obtain ⟨c, hMem, hPhase⟩ := List.any_eq_true.mp hSignalled
  refine h.flag c hMem fun hBeginning => ?_
  simp [hBeginning, ShutdownPhase.hasSignalled] at hPhase

theorem Watched.isOrdered (h : s.Watched) (hSound : s.Sound) : s.tracker.IsOrdered :=
  fun hSent => hSound.flag_of_hasSignalled (h.sent.mp hSent)

theorem Watched.keeps_accept (h : s.Watched) (hSound : s.Sound) (hStep : s.step (.accept choice) = some s') :
    s'.Watched := by
  obtain ⟨t, a, spawned, hAccept, rfl⟩ := accept_of_step hStep
  obtain ⟨hSignal, hWatches⟩ := AcceptLoop.watches_of_step hAccept (h.isOrdered hSound) h.acceptLoop
  obtain ⟨-, hSpawned, -⟩ := AcceptLoop.step_spec hAccept
  refine ⟨?sent, hWatches, ?sessions⟩
  case sent =>
    rw [hSignal]
    exact h.sent
  case sessions =>
    intro session hMem
    rcases List.mem_append.mp hMem with hOld | hNew
    · exact (h.sessions session hOld).mono (Nat.le_of_eq (by rw [hSignal]))
    · -- A session that is new has not subscribed yet.
      rcases hSpawned with rfl | rfl
      · simp at hNew
      · obtain rfl : session = {} := by simpa using hNew
        exact ⟨Nat.zero_le _, fun _ => rfl⟩

theorem Watched.keeps_session (h : s.Watched) (hSound : s.Sound) (hStep : s.step (.session i choice) = some s') :
    s'.Watched := by
  obtain ⟨session, hIndex, t, session', hSession, rfl⟩ := session_of_step hStep
  obtain ⟨hSignal, -⟩ := SessionState.signal_of_step hSession
  have hVersion : s.tracker.signal.version ≤ t.signal.version := Nat.le_of_eq (by rw [hSignal])
  refine ⟨?sent, h.acceptLoop.mono hVersion, ?sessions⟩
  case sent =>
    rw [hSignal]
    exact h.sent
  case sessions =>
    intro other hOther
    rcases List.mem_or_eq_of_mem_set hOther with hOld | rfl
    · exact (h.sessions other hOld).mono hVersion
    · have hWatches := h.sessions session (List.mem_of_getElem? hIndex)
      exact SessionState.watches_of_step hSession (h.isOrdered hSound) hWatches

theorem Watched.keeps_askShutdown (h : s.Watched) {graceful : Bool}
    (hStep : s.step (.askShutdown graceful) = some s') : s'.Watched := by
  simp only [step, Option.some.injEq] at hStep
  subst hStep
  refine ⟨?_, h.acceptLoop, h.sessions⟩
  rw [h.sent]
  simp [hasSignalled, ShutdownPhase.hasSignalled]

theorem Watched.keeps_shutdown (h : s.Watched) (hStep : s.step (.shutdown i choice) = some s') : s'.Watched := by
  obtain ⟨c, hIndex, t, c', hCall, rfl⟩ := shutdown_of_step hStep
  obtain ⟨front, back, hShutdowns, hSet⟩ := exists_append_of_getElem? hIndex
  have hSent := h.sent
  have hSignal := ShutdownCall.signal_of_step hCall
  have hVersion : s.tracker.signal.version ≤ t.signal.version := by
    rcases hSignal with ⟨hSame, -⟩ | ⟨hNext, -⟩
    · exact Nat.le_of_eq (by rw [hSame])
    · omega
  refine ⟨?sent, h.acceptLoop.mono hVersion, fun session hMem => (h.sessions session hMem).mono hVersion⟩
  case sent =>
    simp only [hasSignalled, hSet]
    simp only [hasSignalled, hShutdowns] at hSent
    simp only [List.any_append, List.any_cons] at hSent ⊢
    rcases hSignal with ⟨hSame, hPhase⟩ | ⟨hNext, hPhase⟩
    · rw [hSame, hPhase]
      exact hSent
    · simp [hNext, hPhase]

theorem Watched.keeps_step (h : s.Watched) (hSound : s.Sound) (hStep : s.step action = some s') : s'.Watched := by
  cases action with
  | accept choice => exact h.keeps_accept hSound hStep
  | session i choice => exact h.keeps_session hSound hStep
  | askShutdown graceful => exact h.keeps_askShutdown hStep
  | shutdown i choice => exact h.keeps_shutdown hStep

theorem watched_of_reachable (h : s.Reachable) : s.Watched := by
  obtain ⟨actions, hRun⟩ := h
  have hBoth : s.Sound ∧ s.Watched :=
    run_induction (P := fun s => s.Sound ∧ s.Watched)
      (fun hKept hStep => ⟨(hKept.1.keeps_step hStep).sound, hKept.2.keeps_step hKept.1 hStep⟩)
      ⟨sound_empty, watched_empty⟩ hRun
  exact hBoth.2

/-! ## Behind the flag -/

/-- The budget of a session; one that is not there yet has none. -/
def budget (s : System) (i : Nat) : Nat :=
  (s.sessions.map SessionState.budget).getD i 0

/-- What has happened between two states if the flag was set in the first. -/
structure Settles (s s' : System) : Prop where
  flag : s'.tracker.shuttingDown = true
  budget : ∀ i, s'.budget i ≤ s.budget i
  ending : s.acceptLoop.phase.isEnding = true → s'.acceptLoop.phase.isEnding = true

theorem settles_refl (hFlag : s.tracker.shuttingDown = true) : s.Settles s :=
  ⟨hFlag, fun _ => Nat.le_refl _, id⟩

/-- Sessions that are new begin without a budget. -/
theorem budget_append {spawned : Option SessionState} (hSpawned : spawned = none ∨ spawned = some {}) (i : Nat) :
    ((s.sessions ++ spawned.toList).map SessionState.budget).getD i 0 = s.budget i := by
  rcases hSpawned with rfl | rfl
  · simp [budget]
  · have hNew : ((s.sessions ++ [({} : SessionState)]).map SessionState.budget) =
        s.sessions.map SessionState.budget ++ [0] := by
      simp [SessionState.budget, SessionPhase.mayCall]
    rw [Option.toList_some, hNew, budget]
    rcases Nat.lt_or_ge i (s.sessions.map SessionState.budget).length with hOld | hBeyond
    · rw [List.getD_append _ _ _ _ hOld]
    · rw [List.getD_append_right _ _ _ _ hBeyond, List.getD_eq_default _ _ hBeyond]
      rcases i - (s.sessions.map SessionState.budget).length with _ | k <;> rfl

theorem budget_set {session session' : SessionState} (hIndex : s.sessions[i]? = some session)
    (hBudget : session'.budget ≤ session.budget) (j : Nat) :
    ((s.sessions.set i session').map SessionState.budget).getD j 0 ≤ s.budget j := by
  by_cases hSame : i = j
  · subst hSame
    obtain ⟨hLength, rfl⟩ := List.getElem?_eq_some_iff.mp hIndex
    simpa [budget, hLength] using hBudget
  · simp [budget, hSame]

theorem settles_of_step (hFlag : s.tracker.shuttingDown = true) (hStep : s.step action = some s') : s.Settles s' := by
  cases action with
  | accept choice =>
    obtain ⟨t, a, spawned, hAccept, rfl⟩ := accept_of_step hStep
    obtain ⟨hKept, hSpawned, -⟩ := AcceptLoop.step_spec hAccept
    exact ⟨hKept.trans hFlag, fun j => Nat.le_of_eq (budget_append hSpawned j),
      fun hEnding => (AcceptLoop.isEnding_of_step hAccept hFlag hEnding).1⟩
  | session i choice =>
    obtain ⟨session, hIndex, t, session', hSession, rfl⟩ := session_of_step hStep
    obtain ⟨-, hKept⟩ := SessionState.signal_of_step hSession
    exact ⟨hKept.trans hFlag, budget_set hIndex (SessionState.budget_of_step hSession hFlag), id⟩
  | askShutdown graceful =>
    simp only [step, Option.some.injEq] at hStep
    subst hStep
    exact ⟨hFlag, fun _ => Nat.le_refl _, id⟩
  | shutdown i choice =>
    obtain ⟨c, hIndex, t, c', hCall, rfl⟩ := shutdown_of_step hStep
    obtain ⟨-, hKept, -⟩ := ShutdownCall.step_spec hCall
    exact ⟨hKept (.inl hFlag), fun _ => Nat.le_refl _, id⟩

theorem Settles.trans (h : s.Settles s') (h' : s'.Settles s'') : s.Settles s'' :=
  ⟨h'.flag, fun i => Nat.le_trans (h'.budget i) (h.budget i), fun hEnding => h'.ending (h.ending hEnding)⟩

theorem settles_of_run {later : List Action} (hFlag : s.tracker.shuttingDown = true) (hRun : s.run later = some s') :
    s.Settles s' :=
  run_induction (P := s.Settles) (fun hSoFar hStep => hSoFar.trans (settles_of_step hSoFar.flag hStep))
    (settles_refl hFlag) hRun

theorem calls_le_budget (s : System) (i : Nat) : s.calls.getD i 0 ≤ s.budget i := by
  cases hSession : s.sessions[i]? <;> simp [calls, budget, SessionState.budget, hSession]

theorem budget_le_calls (s : System) (i : Nat) : s.budget i ≤ s.calls.getD i 0 + 1 := by
  cases hSession : s.sessions[i]? with
  | none => simp [calls, budget, hSession]
  | some session => simpa [calls, budget, SessionState.budget, hSession] using Bool.toNat_le session.phase.mayCall

/-! ## The signal -/

/-- Somebody is woken by the signal. -/
def IsWoken (s : System) (action : Action) (s' : System) : Prop :=
  (action = .accept .signalled ∨ ∃ i, action = .session i .signalled) ∧ s.step action = some s'

theorem hasChanged_of_hasSignalled {seen : Nat} {isWaiting : Prop} (h : s.Watched) (hSignalled : s.hasSignalled = true)
    (hWatches : s.tracker.Watches seen isWaiting) (hWaiting : isWaiting) :
    s.tracker.signal.hasChanged seen = true := by
  have hSent : 0 < s.tracker.signal.version := h.sent.mpr hSignalled
  have hUnseen : seen = 0 := hWatches.unseen hWaiting
  simp only [Signal.hasChanged, bne_iff_ne]
  omega

theorem flag_of_isWoken (h : s.Watched) (hSound : s.Sound) (hWoken : s.IsWoken action s') :
    s.tracker.shuttingDown = true := by
  have hOrder := h.isOrdered hSound
  obtain ⟨rfl | ⟨i, rfl⟩, hStep⟩ := hWoken
  · obtain ⟨t, a, spawned, hAccept, -⟩ := accept_of_step hStep
    exact h.acceptLoop.flag_of_hasChanged hOrder (AcceptLoop.hasChanged_of_signalled hAccept).1
  · obtain ⟨session, hIndex, t, session', hSession, -⟩ := session_of_step hStep
    have hWatches := h.sessions session (List.mem_of_getElem? hIndex)
    exact hWatches.flag_of_hasChanged hOrder (SessionState.hasChanged_of_signalled hSession)

theorem isEnding_of_isWoken (hWoken : s.IsWoken (.accept .signalled) s') :
    s'.acceptLoop.phase.isEnding = true := by
  obtain ⟨t, a, spawned, hAccept, rfl⟩ := accept_of_step hWoken.2
  obtain ⟨-, -, hPhase⟩ := AcceptLoop.hasChanged_of_signalled hAccept
  simp [hPhase, AcceptPhase.isEnding]

/-- **The signal of a shutdown is never lost.**  Once a shutdown has set the flag and sent the signal, whoever waits has
not seen it yet and can be woken by it, and whatever happens then, no session begins more than one further handler call.
And whoever is woken by the signal finds the flag set, then and ever after; for the accept loop, which tests it, this is
the end. -/
theorem signal_reaches_all (h : s.Reachable) :
    (s.hasSignalled = true →
      (s.acceptLoop.phase = .waiting → s.tracker.signal.hasChanged s.acceptLoop.seen = true) ∧
      (∀ session ∈ s.sessions, session.phase = .waiting → s.tracker.signal.hasChanged session.seen = true) ∧
      ∀ later s', s.run later = some s' → ∀ i, s'.calls.getD i 0 ≤ s.calls.getD i 0 + 1) ∧
    ∀ action s₁, s.IsWoken action s₁ → ∀ later s', s₁.run later = some s' →
      s'.tracker.shuttingDown = true ∧
        (action = .accept .signalled → s'.acceptLoop.phase = .testing ∨ s'.acceptLoop.phase = .ended) := by
  have hSound := sound_of_reachable h
  have hWatched := watched_of_reachable h
  refine ⟨fun hSignalled => ⟨?accept, ?sessions, ?calls⟩, fun action s₁ hWoken later s' hRun => ?woken⟩
  case accept => exact hasChanged_of_hasSignalled hWatched hSignalled hWatched.acceptLoop
  case sessions =>
    intro session hMem
    exact hasChanged_of_hasSignalled hWatched hSignalled (hWatched.sessions session hMem)
  case calls =>
    intro later s' hRun i
    have hSettles := settles_of_run (hSound.flag_of_hasSignalled hSignalled) hRun
    calc s'.calls.getD i 0
      _ ≤ s'.budget i := s'.calls_le_budget i
      _ ≤ s.budget i := hSettles.budget i
      _ ≤ s.calls.getD i 0 + 1 := s.budget_le_calls i
  case woken =>
    have hFlag := (settles_of_step (flag_of_isWoken hWatched hSound hWoken) hWoken.2).flag
    have hSettles := settles_of_run hFlag hRun
    refine ⟨hSettles.flag, fun hAccept => ?_⟩
    subst hAccept
    have hEnding := hSettles.ending (isEnding_of_isWoken hWoken)
    cases hPhase : s'.acceptLoop.phase <;> simp_all [AcceptPhase.isEnding]

/-- Two sessions are spawned.  The first one waits all the while and still calls the handler once; the second one
subscribes between the two steps of the shutdown and is stopped by the flag. -/
theorem signal_reaches_all_between :
    let accept := Action.accept .proceed
    let first := Action.session 0 .proceed
    let second := Action.session 1 .proceed
    let shutdown := Action.shutdown 0 .proceed
    let signalled : System :=
      { tracker := { active := 2, shuttingDown := true, signal := { value := true, version := 1 } }
        acceptLoop := { phase := .waiting }
        sessions := [{ phase := .waiting }, { phase := .testing }]
        shutdowns := [{ graceful := false, phase := .returned false }] }
    run {} (List.replicate 10 accept ++ [first, first, .askShutdown false, shutdown, second, shutdown]) = some signalled ∧
      signalled.hasSignalled = true ∧ signalled.tracker.signal.hasChanged 0 = true ∧
      (∃ s', signalled.run [first, second, first] = some s' ∧ s'.calls = [1, 0] ∧
        ∀ i, s'.calls.getD i 0 ≤ signalled.calls.getD i 0 + 1) ∧
      ∃ s₁ s', signalled.IsWoken (.accept .signalled) s₁ ∧ s₁.run [first, accept] = some s' ∧
        s'.tracker.shuttingDown = true ∧ (s'.acceptLoop.phase = .testing ∨ s'.acceptLoop.phase = .ended) := by
  intro accept first second shutdown signalled
  have hRun : run {} (List.replicate 10 accept ++ [first, first, .askShutdown false, shutdown, second, shutdown]) =
      some signalled := by decide +kernel
  obtain ⟨hSignal, hFlag⟩ := signal_reaches_all ⟨_, hRun⟩
  have hSignalled : signalled.hasSignalled = true := by decide
  obtain ⟨hAccept, -, hCalls⟩ := hSignal hSignalled
  obtain ⟨s', hLater, hMade⟩ : ∃ s', signalled.run [first, second, first] = some s' ∧ s'.calls = [1, 0] := ⟨_, rfl, rfl⟩
  obtain ⟨s₁, s₂, hStep, hStopped⟩ :
      ∃ s₁ s₂, signalled.step (.accept .signalled) = some s₁ ∧ s₁.run [first, accept] = some s₂ := ⟨_, _, rfl, rfl⟩
  have hWoken : signalled.IsWoken (.accept .signalled) s₁ := ⟨.inl rfl, hStep⟩
  obtain ⟨hStays, hEnds⟩ := hFlag _ _ hWoken _ _ hStopped
  exact ⟨hRun, hSignalled, hAccept rfl, ⟨s', hLater, hMade, hCalls _ _ hLater⟩, s₁, s₂, hWoken, hStopped, hStays,
    hEnds rfl⟩

end System

end HttpServer
