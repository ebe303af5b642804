import HttpServer.Proofs.Wakings
import HttpServer.Server.Lifecycle

/-!
# What a graceful shutdown promises

Whoever shuts a server down gracefully and hears that no guard is held may rely on it: no handler and no hijacker is
running, and none ever will (`System.silent_of_hasDrained`).  The count alone does not say so.  A connection can be
accepted in the same moment and be counted only when somebody has already seen a count of zero; its session is spawned
all the same, and what stops it is the flag, which was set before anybody looked at the count.

The invariant `System.Sound` ties the three together.  Every guard that is counted has an owner; who looks at the count
has set the flag; and once somebody has found the count to be zero, all sessions are quiet, since a quiet one tests the
flag before it waits for a request.  What each party contributes to it is one lemma about its step.
-/

namespace HttpServer

variable {t t' : Tracker} {choice : Choice}

/-! ## The parties -/

/-- Whether the guard of a session is counted. -/
def SessionPhase.isCounted : SessionPhase → Bool
  | .leaving (.leaving _) | .leaving .gone => false
  | .leaving .held => true
  | .subscribing | .testing | .waiting | .reading | .handling | .writing _ | .hijacked | .closing => true

/-- Whether a session has no request at hand and does not wait for one. -/
def SessionPhase.isQuiet : SessionPhase → Bool
  | .subscribing | .testing | .closing | .leaving _ => true
  | .waiting | .reading | .handling | .writing _ | .hijacked => false

/-- Whether the accept loop has a guard that is counted. -/
def AcceptPhase.isCounted : AcceptPhase → Bool
  | .tracked => true
  | .subscribing | .testing | .waiting | .accepted | .ended => false

/-- Whether someone who asks for a shutdown has found that no guard is held. -/
def ShutdownPhase.isDrained : ShutdownPhase → Bool
  | .draining .finished | .returned true => true
  | _ => false

namespace SessionPhase

variable {phase : SessionPhase}

/-- A session whose guard is not counted is on its way out. -/
theorem isQuiet_of_not_isCounted (h : phase.isCounted = false) : phase.isQuiet = true := by
  cases phase <;> simp_all [isCounted, isQuiet]

end SessionPhase

namespace SessionState

variable {s s' : SessionState}

theorem not_isBusy_of_isQuiet (h : s.phase.isQuiet = true) : s.isBusy = false := by
  cases hPhase : s.phase <;> simp_all [SessionPhase.isQuiet, isBusy]

/-- The last steps of a session are those of its guard. -/
theorem step_leaving {guard : Guard} (hPhase : s.phase = .leaving guard) (h : s.step t choice = some (t', s')) :
    guard ≠ .gone ∧ t' = (guard.drop t).1 ∧ s' = { s with phase := .leaving (guard.drop t).2 } := by
  cases guard <;> cases choice <;> simp_all [step]

/-- Up to then a session keeps its guard and leaves the tracker alone.  Among the quiet phases only the test of the flag
has a way on to work, and it is closed while the flag is set. -/
theorem step_serving (hPhase : ∀ guard, s.phase ≠ .leaving guard) (h : s.step t choice = some (t', s')) :
    t' = t ∧ s.phase.isCounted = true ∧ s'.phase.isCounted = true ∧
      (t.shuttingDown = true → s.phase.isQuiet = true → s'.phase.isQuiet = true ∧ s'.calls = s.calls) := by
  unfold step at h
  split at h
  all_goals grind [SessionPhase.isCounted, SessionPhase.isQuiet]

end SessionState

/-- What a guard is counted for changes with the count. -/
theorem Guard.drop_spec {guard : Guard} (hGone : guard ≠ .gone)
    (hActive : (SessionPhase.leaving guard).isCounted = true → 0 < t.active) :
    (guard.drop t).1.shuttingDown = t.shuttingDown ∧
      (guard.drop t).1.active + (SessionPhase.leaving guard).isCounted.toNat =
        t.active + (SessionPhase.leaving (guard.drop t).2).isCounted.toNat := by
  cases guard with
  | held =>
    have hSome := hActive rfl
    refine ⟨rfl, ?_⟩
    simp only [drop, Tracker.untrack, SessionPhase.isCounted, Bool.toNat_true, Bool.toNat_false]
    omega
  | leaving wasLast => cases wasLast <;> exact ⟨rfl, rfl⟩
  | gone => exact absurd rfl hGone

/-- **What a session does** to the tracker, and to itself while the flag is set. -/
theorem SessionState.step_spec {s s' : SessionState} (h : s.step t choice = some (t', s'))
    (hActive : s.phase.isCounted = true → 0 < t.active) :
    t'.shuttingDown = t.shuttingDown ∧
      t'.active + s.phase.isCounted.toNat = t.active + s'.phase.isCounted.toNat ∧
      (t.shuttingDown = true → s.phase.isQuiet = true → s'.phase.isQuiet = true ∧ s'.calls = s.calls) := by
  by_cases hLeaving : ∃ guard, s.phase = .leaving guard
  · obtain ⟨guard, hPhase⟩ := hLeaving
    obtain ⟨hGone, rfl, rfl⟩ := step_leaving hPhase h
    rw [hPhase] at hActive ⊢
    obtain ⟨hFlag, hCount⟩ := Guard.drop_spec hGone hActive
    exact ⟨hFlag, hCount, fun _ _ => ⟨rfl, rfl⟩⟩
  · obtain ⟨rfl, hBefore, hBehind, hQuiet⟩ := step_serving (fun guard hPhase => hLeaving ⟨guard, hPhase⟩) h
    exact ⟨rfl, by rw [hBefore, hBehind], hQuiet⟩

/-- **What the accept loop does** to the tracker: the guard of a connection that was counted goes to a session that is
new. -/
theorem AcceptLoop.step_spec {a a' : AcceptLoop} {spawned : Option SessionState}
    (h : a.step t choice = some (t', a', spawned)) :
    t'.shuttingDown = t.shuttingDown ∧ (spawned = none ∨ spawned = some {}) ∧
      t'.active + a.phase.isCounted.toNat = t.active + a'.phase.isCounted.toNat + spawned.toList.length := by
  unfold step at h
  split at h
  all_goals grind [AcceptPhase.isCounted, Tracker.track]

/-- **What someone who asks for a shutdown does** to the tracker, and when he finds that no guard is held. -/
theorem ShutdownCall.step_spec {c c' : ShutdownCall} (h : c.step t choice = some (t', c')) :
    t'.active = t.active ∧ (t.shuttingDown = true ∨ c.phase = .beginning → t'.shuttingDown = true) ∧
      (c'.phase.isDrained = true → c.phase.isDrained = true ∨ t.active = 0) ∧
      (c.phase = .returned true → c'.phase = .returned true) := by
  unfold step at h
  split at h
  all_goals grind [ShutdownPhase.isDrained, Tracker.raiseFlag, Tracker.sendSignal, → Waiter.watching_of_step]

/-! ## The server -/

/-- Where an element stands in a list, and what putting another in its place does. -/
theorem exists_append_of_getElem? {α : Type} {xs : List α} {i : Nat} {x : α} (h : xs[i]? = some x) :
    ∃ front back, xs = front ++ x :: back ∧ ∀ y, xs.set i y = front ++ y :: back := by
  obtain ⟨hIndex, rfl⟩ := List.getElem?_eq_some_iff.mp h
  refine ⟨xs.take i, xs.drop (i + 1), by simp, fun y => ?_⟩
  simp [List.set_eq_take_append_cons_drop, hIndex]

private theorem countP_append_cons {α : Type} (p : α → Bool) (front back : List α) (x : α) :
    (front ++ x :: back).countP p = front.countP p + back.countP p + (p x).toNat := by
  cases hx : p x with
  | false => simp [hx]
  | true =>
    simp only [List.countP_append, List.countP_cons, hx, if_true, Bool.toNat_true]
    omega

namespace System

variable {s s' : System}

/-- The guards that are counted, by their owners. -/
def guards (s : System) : Nat :=
  s.acceptLoop.phase.isCounted.toNat + s.sessions.countP fun session => session.phase.isCounted

theorem guards_pos {session : SessionState} (hMem : session ∈ s.sessions) (hCounted : session.phase.isCounted = true) :
    0 < s.guards := by
  have hPos : 0 < s.sessions.countP fun session => session.phase.isCounted :=
    List.countP_pos_iff.mpr ⟨session, hMem, hCounted⟩
  unfold guards
  omega

/-- How many handler calls each session has begun. -/
def calls (s : System) : List Nat :=
  s.sessions.map (·.calls)

/-- What is true of a server between two steps. -/
structure Sound (s : System) : Prop where
  /-- Every guard that is counted has an owner. -/
  active : s.tracker.active = s.guards
  /-- Whoever is past the first step of a shutdown has set the flag. -/
  flag : ∀ c ∈ s.shutdowns, c.phase ≠ .beginning → s.tracker.shuttingDown = true
  /-- Since somebody found that no guard is held, there has been nothing to do. -/
  quiet : ∀ c ∈ s.shutdowns, c.phase.isDrained = true → ∀ session ∈ s.sessions, session.phase.isQuiet = true

theorem sound_empty : Sound {} where
  active := rfl
  flag := by simp
  quiet := by simp

/-- The flag is never taken back, so it is set once somebody has found that no guard is held. -/
theorem Sound.flag_of_isDrained (h : s.Sound) {c : ShutdownCall} (hMem : c ∈ s.shutdowns)
    (hDrained : c.phase.isDrained = true) : s.tracker.shuttingDown = true := by
  refine h.flag c hMem fun hBeginning => ?_
  simp [hBeginning, ShutdownPhase.isDrained] at hDrained

/-- A server in which no guard is counted has only sessions on their way out. -/
theorem Sound.isQuiet_of_active (h : s.Sound) (hZero : s.tracker.active = 0) :
    ∀ session ∈ s.sessions, session.phase.isQuiet = true := by
  intro session hMem
  refine SessionPhase.isQuiet_of_not_isCounted (Bool.eq_false_iff.mpr fun hCounted => ?_)
  have hPos := guards_pos hMem hCounted
  rw [← h.active] at hPos
  omega

/-- What is known once a graceful shutdown has answered that no guard is held. -/
theorem Sound.quiet_of_hasDrained (h : s.Sound) (hDrained : s.hasDrained = true) :
    s.tracker.shuttingDown = true ∧ ∀ session ∈ s.sessions, session.phase.isQuiet = true := by
  obtain ⟨c, hMem, hPhase⟩ := List.any_eq_true.mp hDrained
  have hFound : c.phase.isDrained = true := by
    rw [eq_of_beq hPhase]
    rfl
  exact ⟨h.flag_of_isDrained hMem hFound, h.quiet c hMem hFound⟩

/-! ## Steps -/

theorem accept_of_step (h : s.step (.accept choice) = some s') :
    ∃ tracker acceptLoop spawned, s.acceptLoop.step s.tracker choice = some (tracker, acceptLoop, spawned) ∧
      s' = { s with tracker, acceptLoop, sessions := s.sessions ++ spawned.toList } := by
  simp only [step, Option.bind_eq_bind, Option.bind_eq_some_iff, Option.pure_def, Option.some.injEq] at h
  obtain ⟨⟨tracker, acceptLoop, spawned⟩, hAccept, rfl⟩ := h
  exact ⟨tracker, acceptLoop, spawned, hAccept, rfl⟩

theorem session_of_step {i : Nat} (h : s.step (.session i choice) = some s') :
    ∃ session, s.sessions[i]? = some session ∧
      ∃ tracker session', session.step s.tracker choice = some (tracker, session') ∧
        s' = { s with tracker, sessions := s.sessions.set i session' } := by
  simp only [step, Option.bind_eq_bind, Option.bind_eq_some_iff, Option.pure_def, Option.some.injEq] at h
  obtain ⟨session, hIndex, ⟨tracker, session'⟩, hSession, rfl⟩ := h
  exact ⟨session, hIndex, tracker, session', hSession, rfl⟩

theorem shutdown_of_step {i : Nat} (h : s.step (.shutdown i choice) = some s') :
    ∃ c, s.shutdowns[i]? = some c ∧
      ∃ tracker c', c.step s.tracker choice = some (tracker, c') ∧
        s' = { s with tracker, shutdowns := s.shutdowns.set i c' } := by
  simp only [step, Option.bind_eq_bind, Option.bind_eq_some_iff, Option.pure_def, Option.some.injEq] at h
  obtain ⟨c, hIndex, ⟨tracker, c'⟩, hCall, rfl⟩ := h
  exact ⟨c, hIndex, tracker, c', hCall, rfl⟩

/-- What a step keeps: the invariant, and behind a graceful shutdown its answer and the number of calls of every
session.  Sessions that are new have made none. -/
structure Keeps (s s' : System) : Prop where
  sound : s'.Sound
  hasDrained : s.hasDrained = true → s'.hasDrained = true
  calls : s.hasDrained = true → ∃ n, s'.calls = s.calls ++ List.replicate n 0

theorem Sound.keeps_accept (h : s.Sound) {choice : Choice} (hStep : s.step (.accept choice) = some s') :
    s.Keeps s' := by
  obtain ⟨t, a, spawned, hAccept, rfl⟩ := accept_of_step hStep
  obtain ⟨hFlag, hSpawned, hCount⟩ := AcceptLoop.step_spec hAccept
  have hActive := h.active
  -- A session that is new has the guard of its connection, is quiet, and has made no call.
  have hNew : (spawned.toList.countP fun session => session.phase.isCounted) = spawned.toList.length ∧
      (∀ session ∈ spawned.toList, session.phase.isQuiet = true) ∧
      spawned.toList.map (·.calls) = List.replicate spawned.toList.length 0 := by
    rcases hSpawned with rfl | rfl <;> simp [SessionPhase.isCounted, SessionPhase.isQuiet]
  refine ⟨⟨?active, ?flag, ?quiet⟩, id, fun _ => ⟨spawned.toList.length, ?calls⟩⟩
  case active =>
    simp only [guards, List.countP_append, hNew.1] at hActive ⊢
    omega
  case flag =>
    intro c hMem hPhase
    exact hFlag.trans (h.flag c hMem hPhase)
  case quiet =>
    intro c hMem hDrained session hSession
    rcases List.mem_append.mp hSession with hOld | hNewcomer
    · exact h.quiet c hMem hDrained session hOld
    · exact hNew.2.1 session hNewcomer
  case calls =>
    simp only [System.calls, List.map_append, hNew.2.2]

theorem Sound.keeps_session (h : s.Sound) {i : Nat} {choice : Choice} (hStep : s.step (.session i choice) = some s') :
    s.Keeps s' := by
  obtain ⟨session, hIndex, t, session', hSession, rfl⟩ := session_of_step hStep
  obtain ⟨front, back, hSessions, hSet⟩ := exists_append_of_getElem? hIndex
  have hActive := h.active
  have hMember : session ∈ s.sessions := List.mem_of_getElem? hIndex
  obtain ⟨hFlag, hCount, hQuiet⟩ := SessionState.step_spec hSession (hActive ▸ guards_pos hMember)
  refine ⟨⟨?active, ?flag, ?quiet⟩, id, ?calls⟩
  case active =>
    simp only [guards, hSet]
    simp only [guards, hSessions] at hActive
    simp only [countP_append_cons] at hActive ⊢
    omega
  case flag =>
    intro c hMem hPhase
    exact hFlag.trans (h.flag c hMem hPhase)
  case quiet =>
    intro c hMem hDrained other hOther
    have hOld := h.quiet c hMem hDrained
    rcases List.mem_or_eq_of_mem_set hOther with hSame | rfl
    · exact hOld other hSame
    · exact (hQuiet (h.flag_of_isDrained hMem hDrained) (hOld session hMember)).1
  case calls =>
    intro hDrained
    obtain ⟨hRaised, hOld⟩ := h.quiet_of_hasDrained hDrained
    have hSame := (hQuiet hRaised (hOld session hMember)).2
    refine ⟨0, ?_⟩
    rw [System.calls, System.calls, hSet, hSessions]
    simp [hSame]

theorem Sound.keeps_askShutdown (h : s.Sound) {graceful : Bool} (hStep : s.step (.askShutdown graceful) = some s') :
    s.Keeps s' := by
  simp only [step, Option.some.injEq] at hStep
  subst hStep
  refine ⟨⟨h.active, ?flag, ?quiet⟩, ?hasDrained, fun _ => ⟨0, by simp [System.calls]⟩⟩
  case flag =>
    intro c hMem hPhase
    rcases List.mem_append.mp hMem with hOld | hNew
    · exact h.flag c hOld hPhase
    · simp [List.mem_singleton.mp hNew] at hPhase
  case quiet =>
    intro c hMem hDrained
    rcases List.mem_append.mp hMem with hOld | hNew
    · exact h.quiet c hOld hDrained
    · simp [List.mem_singleton.mp hNew, ShutdownPhase.isDrained] at hDrained
  case hasDrained =>
    intro hDrained
    simp only [System.hasDrained, List.any_append, Bool.or_eq_true] at hDrained ⊢
    exact .inl hDrained

theorem Sound.keeps_shutdown (h : s.Sound) {i : Nat} {choice : Choice} (hStep : s.step (.shutdown i choice) = some s') :
    s.Keeps s' := by
  obtain ⟨c, hIndex, t, c', hCall, rfl⟩ := shutdown_of_step hStep
  obtain ⟨front, back, hShutdowns, hSet⟩ := exists_append_of_getElem? hIndex
  obtain ⟨hActive, hFlag, hFound, hReturned⟩ := ShutdownCall.step_spec hCall
  have hMember : c ∈ s.shutdowns := List.mem_of_getElem? hIndex
  refine ⟨⟨hActive.trans h.active, ?flag, ?quiet⟩, ?hasDrained, fun _ => ⟨0, by simp [System.calls]⟩⟩
  case flag =>
    intro d hMem hPhase
    rcases List.mem_or_eq_of_mem_set hMem with hOld | rfl
    · exact hFlag (.inl (h.flag d hOld hPhase))
    · by_cases hBeginning : c.phase = .beginning
      · exact hFlag (.inr hBeginning)
      · exact hFlag (.inl (h.flag c hMember hBeginning))
  case quiet =>
    intro d hMem hDrained
    rcases List.mem_or_eq_of_mem_set hMem with hOld | rfl
    · exact h.quiet d hOld hDrained
    · rcases hFound hDrained with hEarlier | hZero
      · exact h.quiet c hMember hEarlier
      · exact h.isQuiet_of_active hZero
  case hasDrained =>
    intro hDrained
    simp only [System.hasDrained, hSet]
    simp only [System.hasDrained, hShutdowns] at hDrained
    simp only [List.any_append, List.any_cons, Bool.or_eq_true, beq_iff_eq] at hDrained ⊢
    exact hDrained.imp_right (Or.imp_left hReturned)

theorem Sound.keeps_step (h : s.Sound) {action : Action} (hStep : s.step action = some s') : s.Keeps s' := by
  cases action with
  | accept choice => exact h.keeps_accept hStep
  | session i choice => exact h.keeps_session hStep
  | askShutdown graceful => exact h.keeps_askShutdown hStep
  | shutdown i choice => exact h.keeps_shutdown hStep

/-! ## Runs -/

/-- What every step keeps is kept by a run. -/
theorem run_induction {P : System → Prop} {actions : List Action}
    (hKeeps : ∀ {s s' : System} {action : Action}, P s → s.step action = some s' → P s') (h : P s)
    (hRun : s.run actions = some s') : P s' := by
  induction actions generalizing s with
  | nil =>
    obtain rfl : s = s' := by simpa [run] using hRun
    exact h
  | cons action actions ih =>
    simp only [run, Option.bind_eq_some_iff] at hRun
    obtain ⟨s₁, hStep, hRest⟩ := hRun
    exact ih (hKeeps h hStep) hRest

theorem Sound.keeps_run {actions : List Action} (h : s.Sound) (hRun : s.run actions = some s') : s.Keeps s' := by
  refine run_induction (P := s.Keeps) (fun hSoFar hStep => ?_) ⟨h, id, fun _ => ⟨0, by simp⟩⟩ hRun
  have hNext := hSoFar.sound.keeps_step hStep
  refine ⟨hNext.sound, fun hDrained => hNext.hasDrained (hSoFar.hasDrained hDrained), fun hDrained => ?_⟩
  obtain ⟨n, hCalls₁⟩ := hSoFar.calls hDrained
  obtain ⟨m, hCalls⟩ := hNext.calls (hSoFar.hasDrained hDrained)
  exact ⟨n + m, by simp [hCalls, hCalls₁, List.replicate_append_replicate]⟩

theorem sound_of_reachable (h : s.Reachable) : s.Sound := by
  obtain ⟨actions, hRun⟩ := h
  exact (sound_empty.keeps_run hRun).sound

/-- **Silence behind a graceful shutdown.**  Once one has answered that no guard is held, no session runs a handler or a
hijacker, whatever happens later and in whatever order; those that were there begin no further call, and those that are
still spawned begin none. -/
theorem silent_of_hasDrained {later : List Action} (h : s.Reachable) (hDrained : s.hasDrained = true)
    (hRun : s.run later = some s') :
    (∀ session ∈ s'.sessions, session.isBusy = false) ∧ ∃ n, s'.calls = s.calls ++ List.replicate n 0 := by
  have hKeeps := (sound_of_reachable h).keeps_run hRun
  obtain ⟨-, hQuiet⟩ := hKeeps.sound.quiet_of_hasDrained (hKeeps.hasDrained hDrained)
  exact ⟨fun session hMem => SessionState.not_isBusy_of_isQuiet (hQuiet session hMem), hKeeps.calls hDrained⟩

/-- One connection is served to its end; a second one is accepted before the shutdown and counted only behind it. -/
theorem silent_of_hasDrained_accepted :
    let accept := Action.accept .proceed
    let first := Action.session 0 .proceed
    let second := Action.session 1 .proceed
    let shutdown := Action.shutdown 0 .proceed
    let served := List.replicate 5 accept ++ List.replicate 5 first ++ [.session 0 .fail] ++ List.replicate 2 accept ++
      [.askShutdown true, shutdown] ++ List.replicate 3 first ++ List.replicate 4 shutdown
    let later := List.replicate 2 accept ++ List.replicate 4 second
    let drained : System :=
      { tracker := { shuttingDown := true, signal := { value := true, version := 1 }, wakings := 1 }
        acceptLoop := { phase := .accepted }
        sessions := [{ phase := .leaving .gone, calls := 1 }]
        shutdowns := [{ graceful := true, phase := .returned true }] }
    run {} served = some drained ∧ drained.hasDrained = true ∧
      ∃ s', drained.run later = some s' ∧ s'.calls = [1, 0] ∧ ∀ session ∈ s'.sessions, session.isBusy = false := by
  intro accept first second shutdown served later drained
  have hServed : run {} served = some drained := by decide +kernel
  have hDrained : drained.hasDrained = true := by decide
  obtain ⟨s', hLater, hCalls⟩ : ∃ s', drained.run later = some s' ∧ s'.calls = [1, 0] := ⟨_, rfl, rfl⟩
  exact ⟨hServed, hDrained, s', hLater, hCalls, (silent_of_hasDrained ⟨served, hServed⟩ hDrained hLater).1⟩

end System

end HttpServer
