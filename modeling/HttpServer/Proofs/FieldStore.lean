import HttpServer.Headers
import Mathlib

/-!
# Header stores as maps

Two names are the same name when they differ in the case of ASCII letters only, and that is when their canonical
forms are equal (`canonicalName_eq_iff`).  A store whose names are canonical is therefore an association list: a
lookup in either letter case finds the first entry with the canonical name (`get?_eq_lookup`), and storing a field
changes the value of one name (`lookup_insertField`).  Of many fields stored one by one, the last with a name is the
one that is found (`lookup_insertAll`).
-/

namespace HttpServer

/-! ## Names -/

private theorem toLower_eq_hyphen_iff (c : Char) : c.toLower = '-' ↔ c = '-' := by
  by_cases hUpper : c.isUpper
  · constructor
    · intro h
      have hAlpha : c.toLower.isAlpha = c.isAlpha := Char.isAlpha_toLower_eq_isAlpha c
      rw [h] at hAlpha
      simp [Char.isAlpha, hUpper] at hAlpha
    · rintro rfl
      rfl
  · rw [Char.toLower_eq_of_not_isUpper hUpper]

/-- The canonical form of a name depends on its letters but not on their case. -/
theorem canonicalChars_map_toLower (capital : Bool) (cs : List Char) :
    canonicalChars capital (cs.map Char.toLower) = canonicalChars capital cs := by
  induction cs generalizing capital with
  | nil => rfl
  | cons c cs ih =>
    have hHyphen : (c.toLower == '-') = (c == '-') := by
      rw [Bool.eq_iff_iff, beq_iff_eq, beq_iff_eq]
      exact toLower_eq_hyphen_iff c
    simp [canonicalChars, hHyphen, ih]

/-- The canonical form of a name has the letters of the name. -/
theorem map_toLower_canonicalChars (capital : Bool) (cs : List Char) :
    (canonicalChars capital cs).map Char.toLower = cs.map Char.toLower := by
  induction cs generalizing capital with
  | nil => rfl
  | cons c cs ih => cases capital <;> simp [canonicalChars, ih]

/-- Names are the same in either letter case exactly if they have one canonical form. -/
theorem canonicalName_eq_iff {a b : String} :
    canonicalName a = canonicalName b ↔ sameIgnoringCase a b = true := by
  simp only [canonicalName, sameIgnoringCase, beq_iff_eq, String.ofList_inj]
  constructor
  · intro h
    -- The letters of a name can be read off its canonical form.
    rw [← map_toLower_canonicalChars true a.toList, h, map_toLower_canonicalChars]
  · intro h
    rw [← canonicalChars_map_toLower true a.toList, h, canonicalChars_map_toLower]

@[simp]
theorem canonicalName_canonicalName (name : String) :
    canonicalName (canonicalName name) = canonicalName name := by
  rw [canonicalName_eq_iff]
  simp [sameIgnoringCase, canonicalName, map_toLower_canonicalChars]

private theorem isTokenChar_toLower (c : Char) : isTokenChar c.toLower = isTokenChar c := by
  by_cases hUpper : c.isUpper = true
  · have hLetter : c.isAlpha = true := by simp [Char.isAlpha, hUpper]
    have hLower : c.toLower.isAlpha = true := by rw [Char.isAlpha_toLower_eq_isAlpha, hLetter]
    simp [isTokenChar, Char.isAlphanum, hLetter, hLower]
  · rw [Char.toLower_eq_of_not_isUpper hUpper]

/-- Letter case does not decide whether a name is a token. -/
theorem isToken_eq_of_sameIgnoringCase {a b : String} (h : sameIgnoringCase a b = true) : isToken a = isToken b := by
  have hLower : ∀ s : String, isToken s =
      (!(s.toList.map Char.toLower).isEmpty && (s.toList.map Char.toLower).all isTokenChar) := by
    intro s
    have hEmpty : s.isEmpty = s.toList.isEmpty := by
      rw [Bool.eq_iff_iff, String.isEmpty_iff, List.isEmpty_iff, String.toList_eq_nil_iff]
    simp [isToken, hEmpty, List.all_map, Function.comp_def, isTokenChar_toLower]
  simp only [sameIgnoringCase, beq_iff_eq] at h
  rw [hLower, hLower, h]

theorem isToken_canonicalName (name : String) : isToken (canonicalName name) = isToken name :=
  isToken_eq_of_sameIgnoringCase (canonicalName_eq_iff.mp (canonicalName_canonicalName name))

/-! ## Stores -/

/-- The names of stored fields. -/
def fieldNames (fields : List (String × String)) : List String :=
  fields.map Prod.fst

/-- Every name is in canonical case. -/
def IsCanonical (fields : List (String × String)) : Prop :=
  ∀ name ∈ fieldNames fields, canonicalName name = name

namespace Headers

/-- In a store with canonical names, letter case is no obstacle to a lookup. -/
theorem get?_eq_lookup {h : Headers} (hCanonical : IsCanonical h.fields) (name : String) :
    h.get? name = h.fields.lookup (canonicalName name) := by
  obtain ⟨fields, cookies⟩ := h
  simp only [get?] at hCanonical ⊢
  induction fields with
  | nil => rfl
  | cons field fields ih =>
    obtain ⟨n, v⟩ := field
    have hName : canonicalName n = n := hCanonical n (by simp [fieldNames])
    have hRest : IsCanonical fields := fun m hm => hCanonical m (by simp_all [fieldNames])
    have hSame : sameIgnoringCase n name = (canonicalName name == n) := by
      rw [Bool.eq_iff_iff, beq_iff_eq, ← canonicalName_eq_iff, hName, eq_comm]
    -- The first entry is the one, or both searches go on to the rest.
    cases hEq : canonicalName name == n with
    | true => simp [List.lookup_cons, hSame, hEq]
    | false => simpa [List.lookup_cons, hSame, hEq] using ih hRest

variable {name value : String} {fields : List (String × String)}

/-- A name that is not there yet comes behind all others. -/
theorem insertField_of_not_mem (h : name ∉ fieldNames fields) :
    insertField name value fields = fields ++ [(name, value)] := by
  induction fields with
  | nil => rfl
  | cons field fields ih =>
    obtain ⟨n, v⟩ := field
    have hName : n ≠ name := fun hEq => h (by simp [fieldNames, hEq])
    have hRest : name ∉ fieldNames fields := fun hMem => h (by simp_all [fieldNames])
    simp [insertField, hName, ih hRest]

/-- A name that is there keeps its place, and so do all others. -/
theorem fieldNames_insertField_of_mem (h : name ∈ fieldNames fields) :
    fieldNames (insertField name value fields) = fieldNames fields := by
  induction fields with
  | nil => simp [fieldNames] at h
  | cons field fields ih =>
    obtain ⟨n, v⟩ := field
    by_cases hName : n = name
    · simp [insertField, fieldNames, hName]
    · have hRest : name ∈ fieldNames fields := by
        simp only [fieldNames, List.map_cons, List.mem_cons] at h
        exact h.resolve_left fun hEq => hName hEq.symm
      have hNames := ih hRest
      simp only [fieldNames] at hNames ⊢
      simp [insertField, hName, hNames]

theorem mem_fieldNames_insertField {n : String} :
    n ∈ fieldNames (insertField name value fields) ↔ n = name ∨ n ∈ fieldNames fields := by
  by_cases h : name ∈ fieldNames fields
  · rw [fieldNames_insertField_of_mem h]
    constructor
    · exact .inr
    · rintro (rfl | hMem)
      · exact h
      · exact hMem
  · rw [insertField_of_not_mem h]
    simp [fieldNames, or_comm]

theorem nodup_insertField (h : (fieldNames fields).Nodup) :
    (fieldNames (insertField name value fields)).Nodup := by
  by_cases hMem : name ∈ fieldNames fields
  · rw [fieldNames_insertField_of_mem hMem]
    exact h
  · rw [insertField_of_not_mem hMem]
    simp only [fieldNames, List.map_append, List.map_cons, List.map_nil] at hMem h ⊢
    exact List.nodup_append.mpr ⟨h, by simp, by rintro a ha b hb rfl; simp_all⟩

theorem isCanonical_insertField (hFields : IsCanonical fields) (hName : canonicalName name = name) :
    IsCanonical (insertField name value fields) := by
  intro n hn
  rcases mem_fieldNames_insertField.mp hn with rfl | hOld
  · exact hName
  · exact hFields n hOld

theorem lookup_cons_eq (key n v : String) :
    ((n, v) :: fields).lookup key = if key = n then some v else fields.lookup key := by
  by_cases hKey : key = n
  · simp [hKey]
  · have hBeq : (key == n) = false := beq_false_of_ne hKey
    simp [List.lookup_cons, hBeq, hKey]

/-- Storing a field changes what is found under its name and nothing else. -/
theorem lookup_insertField (key : String) :
    (insertField name value fields).lookup key = if key = name then some value else fields.lookup key := by
  induction fields with
  | nil => simp [insertField]
  | cons field fields ih =>
    obtain ⟨n, v⟩ := field
    by_cases hName : n = name
    · subst hName
      by_cases hKey : key = n
      · simp [insertField, hKey]
      · simp [insertField, lookup_cons_eq, hKey]
    · by_cases hKey : key = n
      · subst hKey
        simp [insertField, hName]
      · simp [insertField, lookup_cons_eq, hName, hKey, ih]

theorem lookup_eq_none_of_not_mem (h : name ∉ fieldNames fields) : fields.lookup name = none := by
  rw [List.lookup_eq_none_iff]
  rintro ⟨n, v⟩ hMem
  rw [bne_iff_ne]
  rintro rfl
  exact h (List.mem_map_of_mem hMem)

theorem lookup_eq_some_of_mem (hNodup : (fieldNames fields).Nodup) (h : (name, value) ∈ fields) :
    fields.lookup name = some value := by
  induction fields with
  | nil => simp at h
  | cons field fields ih =>
    obtain ⟨n, v⟩ := field
    simp only [fieldNames, List.map_cons, List.nodup_cons] at hNodup
    rw [lookup_cons_eq]
    rcases List.mem_cons.mp h with hHead | hTail
    · simp only [Prod.mk.injEq] at hHead
      rw [if_pos hHead.1, hHead.2]
    · have hName : name ≠ n := fun hEq => hNodup.1 (hEq ▸ List.mem_map_of_mem hTail)
      rw [if_neg hName]
      exact ih hNodup.2 hTail

/-! ## Lookups behind a change -/

/-- A field that is stored is found in either letter case. -/
theorem get?_insert_of_eq {h : Headers} (hFields : IsCanonical h.fields) (hName : canonicalName name = name)
    {key : String} (hKey : sameIgnoringCase name key = true) : (h.insert name value).get? key = some value := by
  have hStored : IsCanonical (h.insert name value).fields := isCanonical_insertField hFields hName
  have hSame : canonicalName key = name := (canonicalName_eq_iff.mpr hKey).symm.trans hName
  rw [get?_eq_lookup hStored, hSame]
  simp [insert, lookup_insertField]

/-- A field that is taken away is gone in either letter case. -/
theorem get?_remove_of_eq (h : Headers) {key : String} (hKey : sameIgnoringCase name key = true) :
    (h.remove name).get? key = none := by
  simp only [sameIgnoringCase, beq_iff_eq] at hKey
  simp only [get?, remove, Option.map_eq_none_iff, List.find?_eq_none, List.mem_filter]
  rintro ⟨n, v⟩ ⟨-, hOther⟩
  simpa [sameIgnoringCase, hKey] using hOther

private theorem not_sameIgnoringCase {n m key : String} (hn : sameIgnoringCase n m = true)
    (h : sameIgnoringCase m key = false) : sameIgnoringCase n key = false := by
  simp only [sameIgnoringCase, beq_iff_eq, beq_eq_false_iff_ne] at hn h ⊢
  rw [hn]
  exact h

/-- A field that is stored hides no field with another name. -/
theorem get?_insert_of_ne (h : Headers) {key : String} (hKey : sameIgnoringCase name key = false) :
    (h.insert name value).get? key = h.get? key := by
  obtain ⟨fields, cookies⟩ := h
  simp only [get?, insert]
  induction fields with
  | nil => simp [insertField, hKey]
  | cons field fields ih =>
    obtain ⟨n, v⟩ := field
    by_cases hName : n = name
    · subst hName
      simp [insertField, hKey]
    · cases hFound : sameIgnoringCase n key with
      | true => simp [insertField, hName, hFound]
      | false => simpa [insertField, hName, hFound] using ih

/-- A field that is taken away takes no field with another name along. -/
theorem get?_remove_of_ne (h : Headers) {key : String} (hKey : sameIgnoringCase name key = false) :
    (h.remove name).get? key = h.get? key := by
  obtain ⟨fields, cookies⟩ := h
  simp only [get?, remove]
  induction fields with
  | nil => rfl
  | cons field fields ih =>
    obtain ⟨n, v⟩ := field
    cases hSame : sameIgnoringCase n name with
    | true => simpa [hSame, not_sameIgnoringCase hSame hKey] using ih
    | false =>
      cases hFound : sameIgnoringCase n key with
      | true => simp [hSame, hFound]
      | false => simpa [hSame, hFound] using ih

/-! ## Many fields -/

/-- Fields stored one by one. -/
def insertAll (h : Headers) (fields : List (String × String)) : Headers :=
  fields.foldl (fun h field => h.insert field.1 field.2) h

theorem insertAll_append {h : Headers} {more : List (String × String)} :
    h.insertAll (fields ++ more) = (h.insertAll fields).insertAll more := by
  simp [insertAll, List.foldl_append]

theorem cookies_insertAll {h : Headers} : (h.insertAll fields).cookies = h.cookies := by
  induction fields generalizing h with
  | nil => rfl
  | cons field fields ih => exact ih (h := h.insert field.1 field.2)

/-- The last of several fields with one name is the one that counts. -/
theorem lookup_insertAll (h : Headers) (key : String) :
    (h.insertAll fields).fields.lookup key = (fields.reverse.lookup key).or (h.fields.lookup key) := by
  induction fields generalizing h with
  | nil => rfl
  | cons field fields ih =>
    obtain ⟨n, v⟩ := field
    -- What is stored first counts only if no later field has its name.
    have hRest := ih (h.insert n v)
    simp only [insertAll, List.foldl_cons, List.reverse_cons, List.lookup_append] at hRest ⊢
    rw [hRest]
    simp only [insert, lookup_insertField, lookup_cons_eq, List.lookup_nil, Option.or_assoc]
    by_cases hKey : key = n
    · simp [hKey]
    · simp [hKey]

theorem isCanonical_insertAll {h : Headers} (hFields : IsCanonical h.fields) (hNew : IsCanonical fields) :
    IsCanonical (h.insertAll fields).fields := by
  induction fields generalizing h with
  | nil => exact hFields
  | cons field fields ih =>
    have hName : canonicalName field.1 = field.1 := hNew field.1 (by simp [fieldNames])
    have hRest : IsCanonical fields := fun n hn => hNew n (by simp_all [fieldNames])
    exact ih (isCanonical_insertField hFields hName) hRest

/-- Fields with names of their own come to stand behind each other. -/
theorem insertAll_of_nodup {h : Headers} (hNodup : (fieldNames (h.fields ++ fields)).Nodup) :
    h.insertAll fields = { h with fields := h.fields ++ fields } := by
  induction fields generalizing h with
  | nil => simp [insertAll]
  | cons field fields ih =>
    obtain ⟨n, v⟩ := field
    have hNew : n ∉ fieldNames h.fields := by
      simp only [fieldNames, List.map_append, List.map_cons, List.nodup_append] at hNodup
      intro hMem
      exact hNodup.2.2 n hMem n (by simp) rfl
    have hInsert : h.insert n v = { h with fields := h.fields ++ [(n, v)] } := by
      rw [insert, insertField_of_not_mem hNew]
    simp only [insertAll, List.foldl_cons]
    -- The store has grown by the field, and the names that are left are still new to it.
    rw [← insertAll, hInsert, ih (by simpa using hNodup)]
    simp

end Headers
end HttpServer
