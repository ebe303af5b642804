import HttpServer.Proofs.HeadRoundTrip
import HttpServer.Proofs.StoreHistories

/-!
# Heads that cannot be written

A store takes a cookie without a look at its expiry, and an expiry that has no text keeps the whole head from being
written.  So whether there is a head can be read off the calls that the store has seen: each cookie that they leave has
to be dated (`Headers.exists_encodeHead_after_iff`), and a call that goes through is no proof of that
(`Headers.exists_encodeHead_of_setCookie`, `Headers.setCookie_ancient`).
-/

namespace HttpServer

/-- What a call means for the cookie with this name: nothing, or that it is gone, or the cookie that is there now. -/
def StoreCall.cookieEffect? (name : String) : StoreCall → Option (Option Cookie)
  | .setCookie c => if c.name = name ∧ c.validate = .ok () then some (some c) else none
  | .setCookieValue n value =>
    let c : Cookie := { name := n, value }
    if n = name ∧ c.validate = .ok () then some (some c) else none
  | .removeCookie n => if n = name then some none else none
  | .set _ _ | .remove _ => none

/-- The cookie that a history leaves under a name.  The latest call stands first. -/
def heldCookie? (name : String) : List StoreCall → Option Cookie
  | [] => none
  | call :: earlier => (call.cookieEffect? name).getD (heldCookie? name earlier)

namespace Headers

variable {h h' : Headers} {c d : Cookie} {name : String} {history : List StoreCall}

/-- A cookie that is inserted drives out the one with its name, and no other. -/
theorem mem_insertCookie_iff {cookies : List Cookie} (hDistinct : (cookies.map Cookie.name).Nodup) :
    d ∈ insertCookie c cookies ↔ d = c ∨ d ∈ cookies ∧ d.name ≠ c.name := by
  induction cookies with
  | nil => simp [insertCookie]
  | cons first cookies ih =>
    rw [List.map_cons, List.nodup_cons] at hDistinct
    obtain ⟨hFirst, hRest⟩ := hDistinct
    have hOther : ∀ d ∈ cookies, d.name ≠ first.name :=
      fun d hMem hName => hFirst (hName ▸ List.mem_map_of_mem hMem)
    by_cases hName : first.name = c.name
    · simp only [insertCookie, hName, beq_self_eq_true, if_true, List.mem_cons]
      constructor
      · rintro (rfl | hMem)
        · exact .inl rfl
        · exact .inr ⟨.inr hMem, hName ▸ hOther d hMem⟩
      · rintro (rfl | ⟨rfl | hMem, hNe⟩)
        · exact .inl rfl
        · exact absurd hName hNe
        · exact .inr hMem
    · simp only [insertCookie, beq_eq_false_iff_ne.mpr hName, Bool.false_eq_true, if_false, List.mem_cons, ih hRest]
      constructor
      · rintro (rfl | rfl | ⟨hMem, hNe⟩)
        · exact .inr ⟨.inl rfl, hName⟩
        · exact .inl rfl
        · exact .inr ⟨.inr hMem, hNe⟩
      · rintro (rfl | ⟨rfl | hMem, hNe⟩)
        · exact .inr (.inl rfl)
        · exact .inl rfl
        · exact .inr (.inr ⟨hMem, hNe⟩)

/-- The cookies of a store are those that its history leaves. -/
def HoldsCookies (h : Headers) (history : List StoreCall) : Prop :=
  ∀ c, c ∈ h.cookies ↔ heldCookie? c.name history = some c

/-- A call that stores a cookie, or is refused. -/
theorem HoldsCookies.setCookie {call : StoreCall} (hHolds : h.HoldsCookies history) (hLawful : h.Lawful)
    (hPerform : call.perform h = h.setCookie c)
    (hEffect : ∀ name, call.cookieEffect? name = if c.name = name ∧ c.validate = .ok () then some (some c) else none) :
    (call.perform h).2.HoldsCookies (call :: history) := by
  intro d
  rw [hPerform, heldCookie?, hEffect]
  rcases setCookie_cases h c with ⟨hValid, hSet⟩ | ⟨e, hInvalid, hSet⟩
  · rw [hSet]
    dsimp only
    rw [mem_insertCookie_iff hLawful.distinctCookies]
    by_cases hName : c.name = d.name
    · rw [if_pos ⟨hName, hValid⟩, Option.getD_some, Option.some.injEq]
      simp [hName, eq_comm]
    · have hNe : d ≠ c := fun hSame => hName (hSame ▸ rfl)
      rw [if_neg fun hBoth => hName hBoth.1, Option.getD_none, ← hHolds d]
      simp [hNe, Ne.symm hName]
  · have hRefused : ¬(c.name = d.name ∧ c.validate = .ok ()) := fun hBoth => by simp [hBoth.2] at hInvalid
    rw [hSet, if_neg hRefused, Option.getD_none]
    exact hHolds d

/-- Each call keeps the cookies in agreement with the history. -/
theorem HoldsCookies.perform (hHolds : h.HoldsCookies history) (hLawful : h.Lawful) (call : StoreCall) :
    (call.perform h).2.HoldsCookies (call :: history) := by
  cases call with
  | set name value =>
    have hCookies : ((StoreCall.set name value).perform h).2.cookies = h.cookies := by
      rw [StoreCall.perform]
      rcases set_cases h name value with ⟨-, hSet⟩ | ⟨-, e, hSet⟩
      · rw [hSet, Headers.insert]
      · rw [hSet]
    intro c
    rw [hCookies]
    exact hHolds c
  | remove name => exact hHolds
  | setCookie c => exact hHolds.setCookie hLawful rfl fun _ => rfl
  | setCookieValue name value => exact hHolds.setCookie hLawful rfl fun _ => rfl
  | removeCookie name =>
    intro c
    have hMem : c ∈ ((StoreCall.removeCookie name).perform h).2.cookies ↔ c ∈ h.cookies ∧ c.name ≠ name := by
      simp [StoreCall.perform, Headers.removeCookie]
    rw [hMem, hHolds c, heldCookie?, StoreCall.cookieEffect?]
    by_cases hName : name = c.name
    · simp [hName]
    · simp [hName, Ne.symm hName]

theorem holdsCookies_after (history : List StoreCall) : (after history).HoldsCookies history := by
  induction history with
  | nil =>
    intro c
    simp [after, heldCookie?]
  | cons call history ih => exact ih.perform (lawful_reflects_after history).1 call

/-! ## Which heads are written -/

/-- A cookie that is left under a name has this name; it came with one of the calls, or it has no attributes. -/
theorem of_heldCookie (hHeld : heldCookie? name history = some c) :
    c.name = name ∧ (.setCookie c ∈ history ∨ c.expires = none) := by
  induction history with
  | nil => cases hHeld
  | cons call history ih =>
    rw [heldCookie?] at hHeld
    cases hEffect : call.cookieEffect? name with
    | none =>
      rw [hEffect, Option.getD_none] at hHeld
      obtain ⟨hName, hOrigin⟩ := ih hHeld
      exact ⟨hName, hOrigin.imp_left fun hMem => List.mem_cons_of_mem _ hMem⟩
    | some held =>
      rw [hEffect, Option.getD_some] at hHeld
      obtain rfl := hHeld
      cases call with
      | set n value => cases hEffect
      | remove n => cases hEffect
      | setCookie d =>
        obtain ⟨hBoth, hSame⟩ := Option.ite_none_right_eq_some.mp hEffect
        obtain rfl := Option.some.inj (Option.some.inj hSame)
        exact ⟨hBoth.1, .inl (by simp)⟩
      | setCookieValue n value =>
        obtain ⟨hBoth, hSame⟩ := Option.ite_none_right_eq_some.mp hEffect
        obtain rfl := Option.some.inj (Option.some.inj hSame)
        exact ⟨hBoth.1, .inr rfl⟩
      | removeCookie n =>
        obtain ⟨-, hSame⟩ := Option.ite_none_right_eq_some.mp hEffect
        cases hSame

/-- Behind any history a head is written if and only if every cookie that the history leaves is dated. -/
theorem exists_encodeHead_after_iff {version : Version} {status : Status} :
    (∃ head, encodeHead? version status (after history) = some head) ↔
      ∀ name c, heldCookie? name history = some c → c.IsDated := by
  rw [exists_encodeHead_iff]
  constructor
  · intro hDated name c hHeld
    obtain ⟨rfl, -⟩ := of_heldCookie hHeld
    exact hDated c ((holdsCookies_after history c).mpr hHeld)
  · exact fun hDated c hMem => hDated c.name c ((holdsCookies_after history c).mp hMem)

/-- **A stored cookie can keep a head from being written.**  Take any history of a store and any cookie that the store
accepts then.  Whatever version and status are asked for, the head is written if and only if this cookie is dated and so
is every other one that the history leaves.  If all cookies that were ever handed over are dated, it is.  But the
store accepts the cookie with any other expiry too. -/
theorem exists_encodeHead_of_setCookie (hSet : (after history).setCookie c = (.ok (), h')) (version : Version)
    (status : Status) :
    ((∃ head, encodeHead? version status h' = some head) ↔
        c.IsDated ∧ ∀ name d, name ≠ c.name → heldCookie? name history = some d → d.IsDated) ∧
      ((∀ d, .setCookie d ∈ history → d.IsDated) → c.IsDated →
        ∃ head, encodeHead? version status h' = some head) ∧
      ∀ expires, ∃ h'', (after history).setCookie { c with expires } = (.ok (), h'') := by
  obtain ⟨hValid, -⟩ := setCookie_eq_ok_iff.mp hSet
  have hAfter : after (.setCookie c :: history) = h' := by simp [after, StoreCall.perform, hSet]
  have hHeld : ∀ name, heldCookie? name (.setCookie c :: history) =
      if c.name = name then some c else heldCookie? name history := by
    intro name
    simp only [heldCookie?, StoreCall.cookieEffect?, hValid, and_true]
    split <;> rfl
  have hHead : (∃ head, encodeHead? version status h' = some head) ↔
      c.IsDated ∧ ∀ name d, name ≠ c.name → heldCookie? name history = some d → d.IsDated := by
    rw [← hAfter, exists_encodeHead_after_iff]
    constructor
    · refine fun hDated => ⟨hDated c.name c (by rw [hHeld, if_pos rfl]), fun name d hName hOld => ?_⟩
      exact hDated name d (by rw [hHeld, if_neg (Ne.symm hName), hOld])
    · rintro ⟨hDated, hOthers⟩ name d hFound
      rw [hHeld] at hFound
      split at hFound
      · obtain rfl := Option.some.inj hFound
        exact hDated
      · rename_i hName
        exact hOthers name d (Ne.symm hName) hFound
  refine ⟨hHead, fun hHistory hDated => hHead.mpr ⟨hDated, fun name d _ hHeld => ?_⟩, fun expires => ?_⟩
  · rcases (of_heldCookie hHeld).2 with hMem | hNone
    · exact hHistory d hMem
    · intro _ expiry hExpiry
      rw [hNone] at hExpiry
      cases hExpiry
  · have hSame : Cookie.validate { c with expires } = .ok () := hValid
    exact ⟨_, setCookie_eq_ok_iff.mpr ⟨hSame, rfl⟩⟩

/-- A lifetime takes the place of an expiry that has no text. -/
theorem exists_encodeHead_of_setCookie_lasting :
    let c : Cookie := { name := "id", value := "1", maxAge := some 60, expires := some (.ofSeconds (-1)) }
    ∃ h', (after [.setCookieValue "theme" "dark"]).setCookie c = (.ok (), h') ∧ c.IsDated ∧
      ∀ version status, ∃ head, encodeHead? version status h' = some head := by
  intro c
  have hDated : c.IsDated := fun hNone => by cases hNone
  have hSet : (after [.setCookieValue "theme" "dark"]).setCookie c =
      (.ok (), { cookies := [{ name := "theme", value := "dark" }, c] }) := by decide
  have hHistory : ∀ d, StoreCall.setCookie d ∈ [StoreCall.setCookieValue "theme" "dark"] → d.IsDated := by
    intro d hMem
    simp at hMem
  exact ⟨_, hSet, hDated, fun version status =>
    (exists_encodeHead_of_setCookie hSet version status).2.1 hHistory hDated⟩

/-- A cookie that expired before 1970 is accepted, and no head can be written any more. -/
theorem setCookie_ancient :
    let c : Cookie := { name := "id", value := "1", expires := some (.ofSeconds (-1)) }
    ∃ h', (after []).setCookie c = (.ok (), h') ∧ ∀ version status, encodeHead? version status h' = none := by
  intro c
  have hSet : (after []).setCookie c = (.ok (), { cookies := [c] }) := by decide
  refine ⟨_, hSet, fun version status => ?_⟩
  rw [Option.eq_none_iff_forall_ne_some]
  intro head hHead
  have hDated := exists_encodeHead_iff.mp ⟨head, hHead⟩ c (by simp)
  obtain ⟨hFirst, -⟩ := hDated rfl _ rfl
  exact absurd hFirst (by decide)

end Headers

end HttpServer
