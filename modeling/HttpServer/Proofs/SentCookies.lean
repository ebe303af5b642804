import HttpServer.Headers.Value
import HttpServer.Proofs.CookieRoundTrip

/-!
# Cookies that come back

A client sends its cookies back in one line: pairs of a name and a value, with a semicolon and a space between them.
The check of cookies that are set and the reader of that line know nothing of each other.  But a checked name is a
token and a checked value has no semicolon, so the line is cut where it was put together
(`splitCookies_intercalate`), and each pair at its own equals sign (`cookiePair?_writePart`).

What is read are the values without the blanks at their ends, in order and under their names
(`cookiePairs_sentBack`); a value that was only blanks does not come back.  So the values that come back unchanged are
those that have such ends and are not empty, whatever else stands in them (`cookiePairs_sentBack_of_trimmed`).
-/

namespace HttpServer

/-! ## The parts of the line -/

section Parts

variable {c : Char} {part rest : List Char}

theorem splitCookies_cons_of_ne (h : c ≠ ';') : splitCookies (c :: rest) = consFirst c (splitCookies rest) := by
  rw [splitCookies.eq_def]
  split
  · contradiction
  · rename_i hCons
    exact absurd (List.cons.inj hCons).1 h
  · rename_i hCons
    obtain ⟨rfl, rfl⟩ := List.cons.inj hCons
    rfl

theorem splitCookies_of_not_mem (h : ';' ∉ part) : splitCookies part = [part] := by
  induction part with
  | nil => rfl
  | cons c part ih =>
    simp only [List.mem_cons, not_or] at h
    rw [splitCookies_cons_of_ne (Ne.symm h.1), ih h.2]
    rfl

theorem splitCookies_append (h : ';' ∉ part) :
    splitCookies (part ++ ';' :: ' ' :: rest) = part :: splitCookies rest := by
  induction part with
  | nil => rfl
  | cons c part ih =>
    simp only [List.mem_cons, not_or] at h
    rw [List.cons_append, splitCookies_cons_of_ne (Ne.symm h.1), ih h.2]
    rfl

/-- Texts without semicolons are found again on the line that is made of them. -/
theorem splitCookies_intercalate {texts : List String} (hTexts : ∀ t ∈ texts, ';' ∉ t.toList) (hSome : texts ≠ []) :
    splitCookies ("; ".intercalate texts).toList = texts.map String.toList := by
  have hBetween : "; ".toList = [';', ' '] := rfl
  rw [String.toList_intercalate, hBetween]
  induction texts with
  | nil => contradiction
  | cons text texts ih =>
    rw [List.forall_mem_cons] at hTexts
    cases texts with
    | nil => simpa using splitCookies_of_not_mem hTexts.1
    | cons next texts =>
      have hLine : [';', ' '].intercalate ((text :: next :: texts).map String.toList) =
          text.toList ++ ';' :: ' ' :: [';', ' '].intercalate ((next :: texts).map String.toList) := by
        simp [List.intercalate_cons_cons]
      rw [hLine, splitCookies_append hTexts.1, ih hTexts.2 (by simp)]
      rfl

end Parts

/-! ## One pair -/

/-- A token is cut off at the equals sign behind it, and the value loses the blanks at its ends. -/
theorem cookiePair?_writePart {name : String} (hToken : isToken name = true) (value : String) :
    cookiePair? (writePart (name, some value)).toList =
      if trimText value = "" then none else some (name, trimText value) := by
  have hEquals : '=' ∉ name.toList := fun hMem => absurd (isTokenChar_of_mem hToken hMem) (by decide)
  have hCut : cutFirst '=' (writePart (name, some value)).toList = some (name.toList, value.toList) :=
    cutFirst_eq_some_iff.mpr ⟨by simp [writePart], hEquals⟩
  have hSome : name.toList ≠ [] := by
    rintro hNil
    rw [String.toList_eq_nil_iff.mp hNil] at hToken
    exact absurd hToken (by decide)
  simp [cookiePair?, hCut, trim_of_isToken hToken, hSome, trimText]

/-! ## All cookies -/

/-- The line in which a client sends these cookies back. -/
def sentBack (cookies : List Cookie) : String :=
  "; ".intercalate (cookies.map fun c => writePart (c.name, some c.value))

/-- What can be read of a cookie on that line. -/
def Cookie.returned? (c : Cookie) : Option (String × String) :=
  if trimText c.value = "" then none else some (c.name, trimText c.value)

theorem Cookie.fst_of_returned {c : Cookie} {pair : String × String} (h : c.returned? = some pair) :
    pair.1 = c.name := by
  unfold returned? at h
  split at h
  · contradiction
  · obtain rfl := Option.some.inj h
    rfl

section SentBack

variable {cookies : List Cookie}

theorem splitCookies_sentBack (hValid : ∀ c ∈ cookies, c.validate = .ok ()) (hSome : cookies ≠ []) :
    splitCookies (sentBack cookies).toList = cookies.map fun c => (writePart (c.name, some c.value)).toList := by
  have hParts : ∀ t ∈ cookies.map fun c => writePart (c.name, some c.value), ';' ∉ t.toList := by
    simp only [List.mem_map]
    rintro _ ⟨c, hMem, rfl⟩
    exact (Cookie.not_mem_pair_of_validate (hValid c hMem)).2
  rw [sentBack, splitCookies_intercalate hParts (by simpa using hSome), List.map_map]
  rfl

/-- What can be read of each cookie is read, and nothing else. -/
theorem cookiePairs_sentBack (hValid : ∀ c ∈ cookies, c.validate = .ok ()) (hNames : (cookies.map (·.name)).Nodup) :
    cookiePairs (sentBack cookies) = cookies.filterMap Cookie.returned? := by
  by_cases hSome : cookies = []
  · subst hSome
    rfl
  have hParts : (splitCookies (sentBack cookies).toList).filterMap cookiePair? =
      cookies.filterMap Cookie.returned? := by
    rw [splitCookies_sentBack hValid hSome, List.filterMap_map]
    refine List.filterMap_congr fun c hMem => ?_
    exact cookiePair?_writePart (Cookie.parts_of_validate (hValid c hMem)).1 c.value
  have hKeys : ((cookies.filterMap Cookie.returned?).map (·.1)).Nodup := by
    rw [List.Nodup, List.pairwise_map] at hNames ⊢
    refine List.pairwise_filterMap.mpr (hNames.imp fun hName pair hPair other hOther => ?_)
    rwa [Cookie.fst_of_returned hPair, Cookie.fst_of_returned hOther]
  rw [cookiePairs, hParts, foldl_putPair (by simpa using hKeys), List.nil_append]

/-- A name is looked up among the pairs of cookies by looking for the cookie. -/
theorem lookup_map_cookies (cookies : List Cookie) (name : String) :
    (cookies.map fun c => (c.name, c.value)).lookup name = (cookies.find? (name == ·.name)).map (·.value) := by
  induction cookies with
  | nil => rfl
  | cons c cookies ih =>
    rw [List.map_cons, List.lookup_cons, List.find?_cons, ih]
    cases name == c.name with
    | true => rfl
    | false => rfl

/-- Cookies with values that trimming leaves alone come back as they were set: each name has the value of its cookie,
and no other name has one. -/
theorem cookiePairs_sentBack_of_trimmed (hValid : ∀ c ∈ cookies, c.validate = .ok ())
    (hNames : (cookies.map (·.name)).Nodup) (hValues : ∀ c ∈ cookies, c.value ≠ "" ∧ trimText c.value = c.value) :
    cookiePairs (sentBack cookies) = cookies.map (fun c => (c.name, c.value)) ∧
      ∀ name, (cookiePairs (sentBack cookies)).lookup name = (cookies.find? (name == ·.name)).map (·.value) := by
  have hPairs : cookiePairs (sentBack cookies) = cookies.map fun c => (c.name, c.value) := by
    rw [cookiePairs_sentBack hValid hNames, ← List.filterMap_eq_map]
    refine List.filterMap_congr fun c hMem => ?_
    obtain ⟨hSome, hTrimmed⟩ := hValues c hMem
    simp [Cookie.returned?, hSome, hTrimmed]
  rw [hPairs]
  exact ⟨rfl, lookup_map_cookies cookies⟩

/-- Cookies whose values look like pairs, lists and quotations; the second has attributes, which do not come back. -/
def punctuated : List Cookie :=
  [{ name := "id", value := "a=b, \"c\"" }, { name := "theme", value := "b\u00fccher =1", path := some "/x=y" },
    { name := "t", value := "=" }]

theorem cookiePairs_sentBack_punctuated :
    sentBack punctuated = "id=a=b, \"c\"; theme=b\u00fccher =1; t==" ∧
      cookiePairs "id=a=b, \"c\"; theme=b\u00fccher =1; t==" =
        [("id", "a=b, \"c\""), ("theme", "b\u00fccher =1"), ("t", "=")] ∧
      (cookiePairs "id=a=b, \"c\"; theme=b\u00fccher =1; t==").lookup "theme" = some "b\u00fccher =1" := by
  have hValid : ∀ c ∈ punctuated, c.validate = .ok () := by decide
  have hNames : (punctuated.map (·.name)).Nodup := by decide
  have hValues : ∀ c ∈ punctuated, c.value ≠ "" ∧ trimText c.value = c.value := by decide
  have hLine : sentBack punctuated = "id=a=b, \"c\"; theme=b\u00fccher =1; t==" := by decide
  obtain ⟨hPairs, hLookup⟩ := cookiePairs_sentBack_of_trimmed hValid hNames hValues
  rw [← hLine]
  exact ⟨rfl, hPairs, hLookup "theme"⟩

end SentBack

end HttpServer
