import HttpServer.Headers.Block
import HttpServer.Proofs.DateText
import HttpServer.Proofs.FieldStore
import HttpServer.Proofs.Trimming
import HttpServer.Response.Head

/-!
# Stores that fit on lines

The checked ways into a store (`Headers.set`, `Headers.setCookie`) let through only what fits on a line of its own: a
store that was built with them is `Headers.Sound`.  Its names are tokens in canonical case, no two of them the same,
and nothing in it ends a line early (`isFieldValue_headerValue` says so of the cookies).

What a session adds to a reply keeps a store sound (`Headers.Sound.insert`), as long as the value that it adds fits on a
line too.
-/

namespace HttpServer

/-! ## Values -/

@[simp]
theorem isFieldValue_append (a b : String) : isFieldValue (a ++ b) = (isFieldValue a && isFieldValue b) := by
  simp [isFieldValue]

theorem not_mem_of_isFieldValue {value : String} (h : isFieldValue value = true) : '\n' ∉ value.toList := by
  intro hMem
  simp only [isFieldValue, List.all_eq_true] at h
  exact absurd (h _ hMem) (by decide)

private theorem isFieldChar_of_isAlphanum {c : Char} (h : c.isAlphanum = true) : isFieldChar c = true := by
  have hBounds := bounds_of_isAlphanum h
  have hRange : 0x20 ≤ c.toNat ∧ c.toNat ≠ 0x7F := by omega
  simp [isFieldChar, hRange]

theorem isFieldValue_of_isToken {name : String} (h : isToken name = true) : isFieldValue name = true := by
  have hMarks : "!#$%&'*+-.^_\x60|~".toList.all isFieldChar = true := by decide
  simp only [isToken, Bool.and_eq_true, List.all_eq_true] at h
  simp only [isFieldValue, List.all_eq_true]
  intro c hc
  have hToken := h.2 c hc
  simp only [isTokenChar, Bool.or_eq_true, List.contains_iff_mem] at hToken
  rcases hToken with hAlphanum | hMark
  · exact isFieldChar_of_isAlphanum hAlphanum
  · exact List.all_eq_true.mp hMarks c hMark

@[simp]
theorem isFieldValue_decimal (n : Nat) : isFieldValue (String.ofList (decimal n)) = true := by
  simp only [isFieldValue, String.toList_ofList, List.all_eq_true]
  intro c hc
  have hDigit := isDigit_of_mem_decimal hc
  exact isFieldChar_of_isAlphanum (by simp [Char.isAlphanum, hDigit])

theorem isFieldValue_dateText {seconds : Int} {text : String} (h : dateText? seconds = some text) :
    isFieldValue text = true := by
  have hMarks : [' ', ',', ':'].all isFieldChar = true := by decide
  simp only [isFieldValue, List.all_eq_true]
  intro c hc
  have hDate := List.all_eq_true.mp (all_isDateChar_of_dateText h) c hc
  simp only [isDateChar, Bool.or_eq_true, List.contains_iff_mem] at hDate
  rcases hDate with hAlphanum | hMark
  · exact isFieldChar_of_isAlphanum hAlphanum
  · exact List.all_eq_true.mp hMarks c hMark

/-! ## Cookies -/

theorem Cookie.parts_of_validate {c : Cookie} (h : c.validate = .ok ()) :
    isToken c.name = true ∧ isPart c.value = true ∧ c.domain.all isPart = true ∧ c.path.all isPart = true := by
  have hPart : ∀ part text, checkPart c.name part text = .ok () → text.all isPart = true := by
    intro part text h
    unfold checkPart at h
    split at h
    · assumption
    · simp at h
  simp only [validate, bind, Except.bind, throw, throwThe, MonadExceptOf.throw] at h
  cases hEmpty : c.name.isEmpty with
  | true => simp [hEmpty] at h
  | false =>
    cases hName : isToken c.name with
    | false => simp [hEmpty, hName] at h
    | true =>
      simp only [hEmpty, hName, Bool.false_eq_true, Bool.not_true, if_false] at h
      cases hValue : checkPart c.name .value (some c.value) with
      | error e => simp [hValue] at h
      | ok =>
        cases hDomain : checkPart c.name .domain c.domain with
        | error e => simp [hValue, hDomain] at h
        | ok =>
          simp only [hValue, hDomain] at h
          exact ⟨rfl, by simpa using hPart _ _ hValue, hPart _ _ hDomain, hPart _ _ h⟩

theorem isFieldValue_of_isPart {text : String} (h : Cookie.isPart text = true) : isFieldValue text = true := by
  simp only [Cookie.isPart, Bool.and_eq_true] at h
  exact h.1

theorem Cookie.isFieldValue_lifetime {c : Cookie} {text : String} (h : c.lifetime? = some (some text)) :
    isFieldValue text = true := by
  have hAge : isFieldValue "Max-Age=" = true := by decide
  have hExpires : isFieldValue "Expires=" = true := by decide
  unfold lifetime? at h
  split at h
  · simp only [Option.some.injEq] at h
    rw [← h]
    simp [hAge]
  · obtain ⟨date, hDate, hText⟩ := Option.map_eq_some_iff.mp h
    simp only [Option.some.injEq] at hText
    rw [← hText]
    simp [hExpires, isFieldValue_dateText hDate]
  · simp at h

/-- Each attribute of a cookie that was checked is a value. -/
theorem Cookie.isFieldValue_of_mem_attributes {c : Cookie} {attributes : List String} (hValid : c.validate = .ok ())
    (h : c.attributes? = some attributes) : ∀ text ∈ attributes, isFieldValue text = true := by
  obtain ⟨-, -, hDomain, hPath⟩ := parts_of_validate hValid
  have hLabelled : ∀ (label : String) (part : Option String), isFieldValue label = true → part.all isPart = true →
      ∀ text ∈ (part.map (label ++ ·)).toList, isFieldValue text = true := by
    intro label part hLabel hPart text hMem
    cases part with
    | none => simp at hMem
    | some part =>
      simp only [Option.map_some, Option.toList_some, List.mem_singleton] at hMem
      rw [hMem]
      simp [hLabel, isFieldValue_of_isPart hPart]
  have hSite : ∀ site : SameSite, isFieldValue ("SameSite=" ++ site.text) = true := by
    rintro (_ | _ | _) <;> decide
  simp only [attributes?, Option.bind_eq_bind, Option.pure_def, Option.bind_eq_some_iff, Option.some.injEq] at h
  obtain ⟨lifetime, hLifetime, rfl⟩ := h
  simp only [List.mem_append]
  rintro text (((((hMem | hMem) | hMem) | hMem) | hMem) | hMem)
  · simp only [Option.mem_toList] at hMem
    exact isFieldValue_lifetime (hLifetime.trans (congrArg some hMem))
  · exact hLabelled _ _ (by decide) hDomain text hMem
  · exact hLabelled _ _ (by decide) hPath text hMem
  · split at hMem
    · simp only [List.mem_singleton] at hMem
      rw [hMem]
      decide
    · simp at hMem
  · split at hMem
    · simp only [List.mem_singleton] at hMem
      rw [hMem]
      decide
    · simp at hMem
  · simp only [Option.mem_toList, Option.map_eq_some_iff] at hMem
    obtain ⟨site, -, rfl⟩ := hMem
    exact hSite site

theorem Cookie.isFieldValue_headerValue {c : Cookie} {value : String} (hValid : c.validate = .ok ())
    (h : c.headerValue? = some value) : isFieldValue value = true := by
  obtain ⟨hName, hValue, -, -⟩ := parts_of_validate hValid
  -- Joining values keeps a value; the induction is on those that are still to be joined.
  have hJoin : ∀ (texts : List String) (line : String), isFieldValue line = true →
      (∀ text ∈ texts, isFieldValue text = true) →
        isFieldValue (texts.foldl (fun line text => line ++ "; " ++ text) line) = true := by
    intro texts
    induction texts with
    | nil =>
      intro line hLine _
      exact hLine
    | cons text texts ih =>
      intro line hLine hTexts
      refine ih _ ?_ fun t ht => hTexts t (by simp [ht])
      have hSeparator : isFieldValue "; " = true := by decide
      simp [hLine, hSeparator, hTexts text (by simp)]
  simp only [headerValue?, Option.bind_eq_bind, Option.pure_def, Option.bind_eq_some_iff, Option.some.injEq] at h
  obtain ⟨attributes, hAttributes, rfl⟩ := h
  refine hJoin attributes _ ?_ (isFieldValue_of_mem_attributes hValid hAttributes)
  have hEquals : isFieldValue "=" = true := by decide
  simp [hEquals, isFieldValue_of_isToken hName, isFieldValue_of_isPart hValue]

/-! ## Stores -/

namespace Headers

/-- A store whose fields and cookies each fit on one line, and in which no field has the name of another. -/
structure Sound (h : Headers) : Prop where
  canonical : IsCanonical h.fields
  distinct : (fieldNames h.fields).Nodup
  token : ∀ field ∈ h.fields, isToken field.1 = true
  value : ∀ field ∈ h.fields, isFieldValue field.2 = true
  cookie : ∀ c ∈ h.cookies, c.validate = .ok ()

/-- A store that was filled through the checks. -/
inductive Built : Headers → Prop
  | empty : Built {}
  | set {h h' : Headers} {name value : String} (hBuilt : Built h) (hSet : h.set name value = (.ok (), h')) : Built h'
  | remove {h : Headers} {name : String} (hBuilt : Built h) : Built (h.remove name)
  | setCookie {h h' : Headers} {c : Cookie} (hBuilt : Built h) (hSet : h.setCookie c = (.ok (), h')) : Built h'
  | removeCookie {h : Headers} {name : String} (hBuilt : Built h) : Built (h.removeCookie name)

variable {h h' : Headers} {name value : String} {c : Cookie}

/-- What setting a field does: a field that passes the one test for fields is taken, whether an application sets it or
a client sends it, and any other one is refused and leaves the store alone. -/
theorem set_cases (h : Headers) (name value : String) :
    (HeaderBlock.isAcceptable name value = true ∧
        h.set name value = (.ok (), h.insert (canonicalName name) value)) ∨
      HeaderBlock.isAcceptable name value = false ∧ ∃ e, h.set name value = (.error e, h) := by
  unfold set HeaderBlock.isAcceptable
  simp only [isToken_canonicalName]
  by_cases hCookie : canonicalName name = setCookieName
  · exact .inr ⟨by simp [hCookie], .cookieAsHeader, by simp [hCookie]⟩
  · have hOther : (canonicalName name == setCookieName) = false := beq_false_of_ne hCookie
    cases hName : isToken name with
    | false => exact .inr ⟨rfl, .invalidName (canonicalName name), by simp [hOther]⟩
    | true =>
      cases hValue : isFieldValue value with
      | false => exact .inr ⟨rfl, .invalidValue (canonicalName name), by simp [hOther]⟩
      | true => exact .inl ⟨by simp [hCookie], by simp [hOther]⟩

theorem set_eq_ok_iff :
    h.set name value = (.ok (), h') ↔
      HeaderBlock.isAcceptable name value = true ∧ h' = h.insert (canonicalName name) value := by
  rcases set_cases h name value with ⟨hAccept, hSet⟩ | ⟨hRefuse, e, hSet⟩
  · simp [hSet, hAccept, eq_comm]
  · simp [hSet, hRefuse]

theorem of_isAcceptable (h : HeaderBlock.isAcceptable name value = true) :
    isToken (canonicalName name) = true ∧ isFieldValue value = true ∧ canonicalName name ≠ setCookieName := by
  simp only [HeaderBlock.isAcceptable, Bool.and_eq_true, bne_iff_ne] at h
  rw [isToken_canonicalName]
  exact ⟨h.1.1, h.1.2, h.2⟩

theorem Built.setOrDrop (hBuilt : Built h) (name value : String) : Built (h.setOrDrop name value) := by
  rw [Headers.setOrDrop]
  rcases set_cases h name value with ⟨-, hSet⟩ | ⟨-, e, hSet⟩
  · exact hBuilt.set (by rw [hSet])
  · rw [hSet]
    exact hBuilt

theorem mem_insertField {field : String × String} {fields : List (String × String)}
    (hMem : field ∈ insertField name value fields) : field = (name, value) ∨ field ∈ fields := by
  induction fields with
  | nil => simpa [insertField] using hMem
  | cons first fields ih =>
    obtain ⟨n, v⟩ := first
    by_cases hName : n = name
    · subst hName
      simp only [insertField, beq_self_eq_true, if_true, List.mem_cons] at hMem
      exact hMem.imp_right fun hRest => List.mem_cons_of_mem _ hRest
    · simp only [insertField, beq_eq_false_iff_ne.mpr hName, Bool.false_eq_true, if_false, List.mem_cons] at hMem
      rcases hMem with hFirst | hRest
      · exact .inr (by simp [hFirst])
      · exact (ih hRest).imp_right fun hOld => List.mem_cons_of_mem _ hOld

theorem Sound.insert (hSound : h.Sound) (hCanonical : canonicalName name = name) (hToken : isToken name = true)
    (hValue : isFieldValue value = true) : (h.insert name value).Sound where
  canonical := isCanonical_insertField hSound.canonical hCanonical
  distinct := nodup_insertField hSound.distinct
  token field hMem := by
    rcases mem_insertField hMem with rfl | hOld
    · exact hToken
    · exact hSound.token field hOld
  value field hMem := by
    rcases mem_insertField hMem with rfl | hOld
    · exact hValue
    · exact hSound.value field hOld
  cookie := hSound.cookie

theorem Sound.set (hSound : h.Sound) (hSet : h.set name value = (.ok (), h')) : h'.Sound := by
  obtain ⟨hAccept, rfl⟩ := set_eq_ok_iff.mp hSet
  obtain ⟨hToken, hValue, -⟩ := of_isAcceptable hAccept
  exact hSound.insert (canonicalName_canonicalName name) hToken hValue

theorem Sound.remove (hSound : h.Sound) : (h.remove name).Sound where
  canonical n hn := by
    obtain ⟨field, hMem, rfl⟩ := List.mem_map.mp hn
    exact hSound.canonical _ (List.mem_map_of_mem (List.mem_of_mem_filter hMem))
  distinct := hSound.distinct.sublist (List.filter_sublist.map _)
  token field hMem := hSound.token field (List.mem_of_mem_filter hMem)
  value field hMem := hSound.value field (List.mem_of_mem_filter hMem)
  cookie := hSound.cookie

/-- What storing a cookie does: a valid one is taken and nothing else changes, and any other one is refused and leaves
the store alone. -/
theorem setCookie_cases (h : Headers) (c : Cookie) :
    (c.validate = .ok () ∧ h.setCookie c = (.ok (), { h with cookies := insertCookie c h.cookies })) ∨
      ∃ e, c.validate = .error e ∧ h.setCookie c = (.error e, h) := by
  rw [Headers.setCookie]
  cases c.validate with
  | error e => exact .inr ⟨e, rfl, rfl⟩
  | ok => exact .inl ⟨rfl, rfl⟩

theorem setCookie_eq_ok_iff :
    h.setCookie c = (.ok (), h') ↔ c.validate = .ok () ∧ h' = { h with cookies := insertCookie c h.cookies } := by
  rcases setCookie_cases h c with ⟨hValid, hSet⟩ | ⟨e, hInvalid, hSet⟩
  · simp [hSet, hValid, eq_comm]
  · simp [hSet, hInvalid]

theorem mem_insertCookie {d : Cookie} {cookies : List Cookie} (hMem : d ∈ insertCookie c cookies) :
    d = c ∨ d ∈ cookies := by
  induction cookies with
  | nil => simpa [insertCookie] using hMem
  | cons first cookies ih =>
    simp only [insertCookie] at hMem
    split at hMem
    · simp only [List.mem_cons] at hMem ⊢
      exact hMem.imp_right .inr
    · simp only [List.mem_cons] at hMem ⊢
      rcases hMem with hFirst | hRest
      · exact .inr (.inl hFirst)
      · exact (ih hRest).imp_right .inr

theorem Sound.setCookie (hSound : h.Sound) (hSet : h.setCookie c = (.ok (), h')) : h'.Sound := by
  obtain ⟨hValid, rfl⟩ := setCookie_eq_ok_iff.mp hSet
  refine { hSound with cookie := fun d hMem => ?_ }
  rcases mem_insertCookie hMem with rfl | hOld
  · exact hValid
  · exact hSound.cookie d hOld

theorem Sound.removeCookie (hSound : h.Sound) : (h.removeCookie name).Sound :=
  { hSound with cookie := fun c hMem => hSound.cookie c (List.mem_of_mem_filter hMem) }

/-- The checks keep a store sound. -/
theorem sound_of_built (hBuilt : Built h) : h.Sound := by
  induction hBuilt with
  | empty => exact ⟨by simp [IsCanonical, fieldNames], by simp [fieldNames], by simp, by simp, by simp⟩
  | set _ hSet ih => exact ih.set hSet
  | remove _ ih => exact ih.remove
  | setCookie _ hSet ih => exact ih.setCookie hSet
  | removeCookie _ ih => exact ih.removeCookie

end Headers
end HttpServer
