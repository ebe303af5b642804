import HttpServer.Server.Tracker
import Mathlib.Data.List.Induction
import Mathlib.Logic.Function.Iterate

/-!
# Waiting for a tracker to become idle

Guards are taken and dropped and people wait for the last one to go, all in any order, and between the look at the
count and the sleep of one of them everybody else may have moved.  What keeps a waking from being lost is the order in
which one who waits takes his steps: he notes the wakings first and looks at the count behind that.

The invariant `Crowd.Sound` says what this comes to.  The count is the number of guards that are held; nobody has noted
a waking that is still to come; and while nothing is held, everybody who sleeps was called since he noted the wakings,
or a guard stands between its two steps and is about to call him.  That the wakings beyond those that he noted were
indeed calls to him is said of the run itself (`Crowd.IsCalled`).
-/

namespace HttpServer

/-! ## What one step does -/

/-- **What dropping a guard does.**  A guard that is held is no longer counted, and it knows whether it was the last;
the last one wakes those who wait. -/
theorem Guard.drop_cases (t : Tracker) (guard : Guard) :
    (guard = .held ∧ guard.drop t = ({ t with active := t.active - 1 }, .leaving (t.active == 1))) ∨
      (guard = .leaving true ∧ guard.drop t = (t.wake, .gone)) ∨
      (guard ≠ .held ∧ guard ≠ .leaving true ∧ guard.drop t = (t, .gone)) := by
  cases guard with
  | held => exact .inl ⟨rfl, rfl⟩
  | leaving wasLast =>
    cases wasLast with
    | true => exact .inr (.inl ⟨rfl, rfl⟩)
    | false => exact .inr (.inr ⟨by simp, by simp, rfl⟩)
  | gone => exact .inr (.inr ⟨by simp, by simp, rfl⟩)

/-- **What one who waits does.** -/
theorem Waiter.step_cases (t : Tracker) (waiter : Waiter) :
    (waiter = .beginning ∧ waiter.step t = .watching t.wakings) ∨
      (∃ noted, waiter = .watching noted ∧ t.active = 0 ∧ waiter.step t = .finished) ∨
      (∃ noted, waiter = .watching noted ∧ t.active ≠ 0 ∧ waiter.step t = .asleep noted) ∨
      (∃ noted, waiter = .asleep noted ∧ noted < t.wakings ∧ waiter.step t = .beginning) ∨
      waiter.step t = waiter := by
  cases waiter with
  | beginning => exact .inl ⟨rfl, rfl⟩
  | watching noted =>
    by_cases hZero : t.active = 0
    · exact .inr (.inl ⟨noted, rfl, hZero, by simp [step, hZero]⟩)
    · exact .inr (.inr (.inl ⟨noted, rfl, hZero, by simp [step, hZero]⟩))
  | asleep noted =>
    by_cases hWoken : noted < t.wakings
    · exact .inr (.inr (.inr (.inl ⟨noted, rfl, hWoken, by simp [step, hWoken]⟩)))
    · exact .inr (.inr (.inr (.inr (by simp [step, hWoken]))))
  | finished => exact .inr (.inr (.inr (.inr rfl)))

/-- Only a look at the count brings waiting to its end, and only if the count is zero. -/
theorem Waiter.watching_of_step {t : Tracker} {waiter : Waiter} (h : waiter.step t = .finished) :
    waiter = .finished ∨ (∃ noted, waiter = .watching noted) ∧ t.active = 0 := by
  rcases waiter.step_cases t with
    ⟨-, hNext⟩ | ⟨noted, rfl, hZero, -⟩ | ⟨_, -, -, hNext⟩ | ⟨_, -, -, hNext⟩ | hNext
  · simp [hNext] at h
  · exact .inr ⟨⟨noted, rfl⟩, hZero⟩
  · simp [hNext] at h
  · simp [hNext] at h
  · exact .inl (hNext.symm.trans h)

/-- The wakings that one who waits has noted. -/
def Waiter.noted? : Waiter → Option Nat
  | .watching noted | .asleep noted => some noted
  | .beginning | .finished => none

namespace Crowd

variable {c : Crowd} {actions : List CrowdAction} {action : CrowdAction} {i : Nat}

theorem step_drop {guard : Guard} (h : c.guards[i]? = some guard) :
    c.step (.drop i) =
      { c with tracker := (guard.drop c.tracker).1, guards := c.guards.set i (guard.drop c.tracker).2 } := by
  simp [step, h]

theorem step_advance {waiter : Waiter} (h : c.waiters[i]? = some waiter) :
    c.step (.advance i) = { c with waiters := c.waiters.set i (waiter.step c.tracker) } := by
  simp [step, h]

/-- Where someone who waits came from: he stood there already, he is new, or it was his own step. -/
theorem waiter_of_step {waiter : Waiter} (h : (c.step action).waiters[i]? = some waiter) :
    c.waiters[i]? = some waiter ∨ waiter = .beginning ∨
      ∃ before, action = .advance i ∧ c.waiters[i]? = some before ∧ before.step c.tracker = waiter := by
  cases action with
  | track => exact .inl h
  | drop j =>
    cases hGuard : c.guards[j]? with
    | none => exact .inl (by simpa [step, hGuard] using h)
    | some guard => exact .inl (by simpa [step_drop hGuard] using h)
  | wait =>
    by_cases hOld : i < c.waiters.length
    · exact .inl (by simpa [step, List.getElem?_append_left hOld] using h)
    · have hNew : waiter ∈ [Waiter.beginning] := by
        simp only [step, List.getElem?_append_right (Nat.le_of_not_lt hOld)] at h
        exact List.mem_of_getElem? h
      exact .inr (.inl (List.mem_singleton.mp hNew))
  | advance j =>
    cases hWaiter : c.waiters[j]? with
    | none => exact .inl (by simpa [step, hWaiter] using h)
    | some before =>
      rw [step_advance hWaiter] at h
      by_cases hSame : j = i
      · subst hSame
        have hIndex : j < c.waiters.length := (List.getElem?_eq_some_iff.mp hWaiter).1
        simp only [List.getElem?_set_self hIndex, Option.some.injEq] at h
        exact .inr (.inr ⟨before, rfl, hWaiter, h⟩)
      · exact .inl (by simpa [List.getElem?_set_ne hSame] using h)

/-- Only the last step of the last guard wakes anybody. -/
theorem wakings_of_step (c : Crowd) (action : CrowdAction) :
    (c.step action).tracker.wakings = c.tracker.wakings ∨
      ∃ j, action = .drop j ∧ c.guards[j]? = some (.leaving true) := by
  cases action with
  | track => exact .inl rfl
  | drop j =>
    cases hGuard : c.guards[j]? with
    | none => exact .inl (by simp [step, hGuard])
    | some guard =>
      rw [step_drop hGuard]
      rcases guard.drop_cases c.tracker with ⟨-, hDrop⟩ | ⟨rfl, -⟩ | ⟨-, -, hDrop⟩
      · exact .inl (by simp [hDrop])
      · exact .inr ⟨j, rfl, hGuard⟩
      · exact .inl (by simp [hDrop])
  | wait => exact .inl rfl
  | advance j =>
    cases hWaiter : c.waiters[j]? with
    | none => exact .inl (by simp [step, hWaiter])
    | some before => exact .inl (by simp [step_advance hWaiter])

/-! ## The invariant -/

/-- What is true of a crowd between two steps. -/
structure Sound (c : Crowd) : Prop where
  /-- The count is that of the guards that are held. -/
  active : c.tracker.active = c.held
  /-- Nobody has noted a waking that is still to come. -/
  noted : ∀ waiter ∈ c.waiters, ∀ n ∈ waiter.noted?, n ≤ c.tracker.wakings
  /-- While no guard is held, who sleeps has been woken, or is about to be. -/
  woken : c.tracker.active = 0 → ∀ n, .asleep n ∈ c.waiters → n < c.tracker.wakings ∨ .leaving true ∈ c.guards

theorem sound_empty : Sound {} where
  active := rfl
  noted := by simp
  woken := by simp

/-- A guard that is held is counted. -/
theorem Sound.active_pos (h : c.Sound) (hHeld : c.guards[i]? = some .held) : 0 < c.tracker.active := by
  rw [h.active]
  exact List.count_pos_iff.mpr (List.mem_of_getElem? hHeld)

theorem Sound.keeps_track (h : c.Sound) : (c.step .track).Sound where
  active := by simp [step, Tracker.track, held, h.active]
  noted := h.noted
  woken := by simp [step, Tracker.track]

theorem Sound.keeps_drop (h : c.Sound) (i : Nat) : (c.step (.drop i)).Sound := by
  cases hGuard : c.guards[i]? with
  | none => simpa [step, hGuard] using h
  | some guard =>
    obtain ⟨hIndex, hAt⟩ := List.getElem?_eq_some_iff.mp hGuard
    have hActive : c.tracker.active = c.guards.count .held := h.active
    rw [step_drop hGuard]
    rcases guard.drop_cases c.tracker with ⟨rfl, hDrop⟩ | ⟨rfl, hDrop⟩ | ⟨hNotHeld, hNotLast, hDrop⟩
    case inl =>
      have hSome := h.active_pos hGuard
      rw [hDrop]
      refine ⟨?active, h.noted, fun hZero n _ => .inr ?woken⟩
      case active =>
        simp only [held, List.count_set hIndex, hAt]
        simp [hActive]
      case woken =>
        -- The count was one, so this guard was the last one and says so.
        have hLast : c.tracker.active = 1 := by simp only at hZero; omega
        simpa [hLast] using List.mem_set hIndex (Guard.leaving true)
    case inr.inl =>
      rw [hDrop]
      refine ⟨?active, fun waiter hMem n hNoted => ?noted, fun _ n hMem => .inl ?woken⟩
      case active =>
        simp only [held, List.count_set hIndex, hAt]
        simp [hActive, Tracker.wake]
      case noted => exact Nat.le_succ_of_le (h.noted waiter hMem n hNoted)
      case woken => exact Nat.lt_succ_of_le (h.noted _ hMem n rfl)
    case inr.inr =>
      rw [hDrop]
      refine ⟨?active, h.noted, fun hZero n hMem => (h.woken hZero n hMem).imp_right ?woken⟩
      case active =>
        simp only [held, List.count_set hIndex, hAt]
        simp [hActive, hNotHeld]
      case woken =>
        intro hDue
        obtain ⟨j, hLast⟩ := List.mem_iff_getElem?.mp hDue
        have hOther : i ≠ j := by
          rintro rfl
          rw [hGuard] at hLast
          exact hNotLast (Option.some.inj hLast)
        exact List.mem_of_getElem? (by rwa [List.getElem?_set_ne hOther])

theorem Sound.keeps_wait (h : c.Sound) : (c.step .wait).Sound where
  active := h.active
  noted := by
    intro waiter hMem
    rcases List.mem_append.mp hMem with hOld | hNew
    · exact h.noted waiter hOld
    · simp [List.mem_singleton.mp hNew, Waiter.noted?]
  woken := by
    intro hZero n hMem
    exact h.woken hZero n (by simpa [step] using hMem)

theorem Sound.keeps_advance (h : c.Sound) (i : Nat) : (c.step (.advance i)).Sound := by
  cases hWaiter : c.waiters[i]? with
  | none => simpa [step, hWaiter] using h
  | some before =>
    have hBefore : before ∈ c.waiters := List.mem_of_getElem? hWaiter
    rw [step_advance hWaiter]
    refine ⟨h.active, ?noted, ?woken⟩
    case noted =>
      intro waiter hMem n hNoted
      rcases List.mem_or_eq_of_mem_set hMem with hOld | rfl
      · exact h.noted waiter hOld n hNoted
      · have hNow := h.noted before hBefore n
        grind [Waiter.noted?, before.step_cases c.tracker]
    case woken =>
      intro hZero n hMem
      rcases List.mem_or_eq_of_mem_set hMem with hOld | hAsleep
      · exact h.woken hZero n hOld
      · -- He looked at the count just now, so it was not zero, or he has been asleep all along.
        have hNow := h.woken hZero n
        grind [before.step_cases c.tracker]

theorem Sound.keeps_step (h : c.Sound) (action : CrowdAction) : (c.step action).Sound := by
  cases action with
  | track => exact h.keeps_track
  | drop i => exact h.keeps_drop i
  | wait => exact h.keeps_wait
  | advance i => exact h.keeps_advance i

/-! ## Runs -/

theorem run_concat (c : Crowd) (actions : List CrowdAction) (action : CrowdAction) :
    c.run (actions ++ [action]) = (c.run actions).step action := by
  simp [run]

theorem sound_run (actions : List CrowdAction) : (run {} actions).Sound := by
  induction actions using List.reverseRecOn with
  | nil => exact sound_empty
  | append_singleton actions action ih =>
    rw [run_concat]
    exact ih.keeps_step action

/-- Waiter `i` found the count to be zero in the course of a run. -/
def HasSeenZero (actions : List CrowdAction) (i : Nat) : Prop :=
  ∃ front back noted, actions = front ++ .advance i :: back ∧
    (run {} front).waiters[i]? = some (.watching noted) ∧ (run {} front).tracker.active = 0

/-- In the course of a run those who wait were woken while waiter `i` had `n` wakings noted. -/
def IsCalled (actions : List CrowdAction) (i n : Nat) : Prop :=
  ∃ front j back waiter, actions = front ++ .drop j :: back ∧ (run {} front).guards[j]? = some (.leaving true) ∧
    (run {} front).waiters[i]? = some waiter ∧ waiter.noted? = some n

theorem HasSeenZero.concat (h : HasSeenZero actions i) (action : CrowdAction) :
    HasSeenZero (actions ++ [action]) i := by
  obtain ⟨front, back, noted, rfl, hWaiter, hZero⟩ := h
  exact ⟨front, back ++ [action], noted, by simp, hWaiter, hZero⟩

theorem IsCalled.concat {n : Nat} (h : IsCalled actions i n) (action : CrowdAction) :
    IsCalled (actions ++ [action]) i n := by
  obtain ⟨front, j, back, waiter, rfl, hGuard, hWaiter, hNoted⟩ := h
  exact ⟨front, j, back ++ [action], waiter, by simp, hGuard, hWaiter, hNoted⟩

/-- Nobody stops waiting without having found the count to be zero. -/
theorem hasSeenZero_of_finished (h : (run {} actions).waiters[i]? = some .finished) : HasSeenZero actions i := by
  induction actions using List.reverseRecOn with
  | nil => simp [run] at h
  | append_singleton actions action ih =>
    rw [run_concat] at h
    rcases waiter_of_step h with hOld | hNew | ⟨before, rfl, hBefore, hStep⟩
    · exact (ih hOld).concat action
    · cases hNew
    · rcases before.watching_of_step hStep with rfl | ⟨⟨noted, rfl⟩, hZero⟩
      · exact (ih hBefore).concat _
      · exact ⟨actions, [], noted, rfl, hBefore, hZero⟩

/-- Wakings beyond those that somebody has noted came while he had them noted. -/
theorem isCalled_of_lt {waiter : Waiter} {n : Nat} (h : (run {} actions).waiters[i]? = some waiter)
    (hNoted : waiter.noted? = some n) (hMore : n < (run {} actions).tracker.wakings) : IsCalled actions i n := by
  induction actions using List.reverseRecOn generalizing waiter with
  | nil => simp [run] at h
  | append_singleton actions action ih =>
    rw [run_concat] at h hMore
    rcases waiter_of_step h with hOld | rfl | ⟨before, rfl, hBefore, rfl⟩
    · rcases wakings_of_step (run {} actions) action with hSame | ⟨j, rfl, hLast⟩
      · exact (ih hOld hNoted (hSame ▸ hMore)).concat action
      · exact ⟨actions, j, [], waiter, rfl, hLast, hOld, hNoted⟩
    · simp [Waiter.noted?] at hNoted
    · -- Who notes the wakings notes all of them, so it was not this step that did it.
      rw [step_advance hBefore] at hMore
      refine (ih hBefore ?_ hMore).concat _
      grind [Waiter.noted?, before.step_cases (run {} actions).tracker]

/-- **The count is right and no waking is lost.**  After every run the count is the number of guards that are held, and
dropping one of them takes exactly one off.  Who has stopped waiting has found the count to be zero.  While it is zero,
everybody who is asleep has been called since he noted the wakings, so that his next step takes him back to the count,
or a guard that was the last has left it and is about to call him. -/
theorem counts_and_calls (hRun : run {} actions = c) :
    (c.tracker.active = c.held ∧
      ∀ i, c.guards[i]? = some .held → (c.step (.drop i)).tracker.active + 1 = c.tracker.active) ∧
    (∀ i, c.waiters[i]? = some .finished → HasSeenZero actions i) ∧
    ∀ i n, c.waiters[i]? = some (.asleep n) → c.tracker.active = 0 →
      (IsCalled actions i n ∧ (c.step (.advance i)).waiters[i]? = some .beginning) ∨ .leaving true ∈ c.guards := by
  subst hRun
  have hSound := sound_run actions
  refine ⟨⟨hSound.active, fun i hHeld => ?_⟩, fun i => hasSeenZero_of_finished, fun i n hAsleep hZero => ?_⟩
  · have hSome := hSound.active_pos hHeld
    rw [step_drop hHeld]
    simp only [Guard.drop, Tracker.untrack]
    omega
  · rcases hSound.woken hZero n (List.mem_of_getElem? hAsleep) with hMore | hDue
    · have hIndex := (List.getElem?_eq_some_iff.mp hAsleep).1
      refine .inl ⟨isCalled_of_lt hAsleep rfl hMore, ?_⟩
      simp [step_advance hAsleep, hIndex, Waiter.step, hMore]
    · exact .inr hDue

/-- The first waiter comes while nothing is held, the second while two guards are; the last guard is on its way out when
nobody is counted any more, and calls the second waiter then. -/
theorem counts_and_calls_two_guards :
    let held : List CrowdAction := [.wait, .advance 0, .advance 0, .track, .track, .wait, .advance 1, .advance 1, .drop 0]
    let leaving := held ++ [.drop 1]
    let gone := leaving ++ [.drop 1]
    (run {} held).guards[1]? = some .held ∧ ((run {} held).step (.drop 1)).tracker.active + 1 = 1 ∧
      (run {} held).waiters[0]? = some .finished ∧ HasSeenZero held 0 ∧
      (run {} leaving).tracker.active = 0 ∧ (run {} leaving).waiters[1]? = some (.asleep 0) ∧
      .leaving true ∈ (run {} leaving).guards ∧
      (run {} gone).tracker.active = 0 ∧ (run {} gone).waiters[1]? = some (.asleep 0) ∧ IsCalled gone 1 0 := by
  intro held leaving gone
  have hHeld := counts_and_calls (rfl : run {} held = run {} held)
  have hLeaving := counts_and_calls (rfl : run {} leaving = run {} leaving)
  have hGone := counts_and_calls (rfl : run {} gone = run {} gone)
  have hSilent : ¬((run {} leaving).step (.advance 1)).waiters[1]? = some .beginning := by decide
  have hNobody : .leaving true ∉ (run {} gone).guards := by decide
  refine ⟨by decide, hHeld.1.2 1 (by decide), by decide, hHeld.2.1 0 (by decide), by decide, by decide, ?leaving,
    by decide, by decide, ?gone⟩
  case leaving => exact (hLeaving.2.2 1 0 (by decide) (by decide)).resolve_left fun hCalled => hSilent hCalled.2
  case gone => exact ((hGone.2.2 1 0 (by decide) (by decide)).resolve_right hNobody).1

/-! ## Progress -/

/-- While nobody else moves, one who waits takes one step behind the other. -/
theorem getElem?_run_replicate_advance {waiter : Waiter} (n : Nat) (h : c.waiters[i]? = some waiter) :
    (c.run (List.replicate n (.advance i))).waiters[i]? = some ((Waiter.step c.tracker)^[n] waiter) := by
  induction n generalizing c waiter with
  | zero => exact h
  | succ n ih =>
    have hIndex := (List.getElem?_eq_some_iff.mp h).1
    have hNext : (c.step (.advance i)).waiters[i]? = some (waiter.step c.tracker) := by simp [step_advance h, hIndex]
    have hSame : (c.step (.advance i)).tracker = c.tracker := by simp [step_advance h]
    have hRest := ih hNext
    rw [hSame] at hRest
    exact hRest

/-- So everybody who waits comes to an end: once no guard is held and none is on its way out, three steps of his own take
him there. -/
theorem finished_of_idle (hIdle : (run {} actions).tracker.active = 0) (hGone : .leaving true ∉ (run {} actions).guards)
    (hi : i < (run {} actions).waiters.length) :
    (run {} (actions ++ List.replicate 3 (.advance i))).waiters[i]? = some .finished := by
  obtain ⟨waiter, hWaiter⟩ : ∃ waiter, (run {} actions).waiters[i]? = some waiter := ⟨_, List.getElem?_eq_getElem hi⟩
  have hRun : run {} (actions ++ List.replicate 3 (.advance i)) =
      (run {} actions).run (List.replicate 3 (.advance i)) := List.foldl_append
  rw [hRun, getElem?_run_replicate_advance 3 hWaiter]
  cases waiter with
  | beginning => simp [Waiter.step, hIdle]
  | watching noted => simp [Waiter.step, hIdle]
  | asleep noted =>
    have hWoken := ((sound_run actions).woken hIdle noted (List.mem_of_getElem? hWaiter)).resolve_right hGone
    simp [Waiter.step, hIdle, hWoken]
  | finished => simp [Waiter.step]

end Crowd
end HttpServer
