import HttpServer.Proofs.HeaderLines
import HttpServer.Proofs.StoreInvariant

/-!
# Stores and their histories

Whatever calls a store has seen, it is `Headers.Lawful`: every field fits on a line of its own, no two names are the
same, not even in different letter cases, no field is a cookie in disguise, and no two cookies have one name.  The same
is true of the store that a header block is read into, whatever lines it was fed and whichever of them were errors.

Beside the store stands the history itself.  `heldField?` reads off a list of calls what they leave under a name, without
a store: the value that was set last, unless the name was removed since, and the call at which it came to stay.
`Headers.Reflects` says that the store and its history agree on lookups, on the number of fields, and on their order.
-/

namespace HttpServer

/-- What two names have in common that differ in the case of ASCII letters only. -/
def nameKey (name : String) : List Char :=
  name.toList.map Char.toLower

theorem nameKey_eq_iff {a b : String} : nameKey a = nameKey b ↔ sameIgnoringCase a b = true := by
  simp [nameKey, sameIgnoringCase]

@[simp]
theorem nameKey_canonicalName (name : String) : nameKey (canonicalName name) = nameKey name := by
  rw [nameKey_eq_iff, ← canonicalName_eq_iff, canonicalName_canonicalName]

/-! ## Stores as the checks leave them -/

namespace Headers

/-- A store as the checks leave it. -/
structure Lawful (h : Headers) : Prop extends Sound h where
  distinctKeys : h.fields.Pairwise fun field other => sameIgnoringCase field.1 other.1 = false
  noSetCookie : ∀ field ∈ h.fields, field.1 ≠ setCookieName
  distinctCookies : (h.cookies.map Cookie.name).Nodup

variable {h h' : Headers} {name value extra : String} {c : Cookie}

/-- Names in canonical case that differ at all differ in more than letter case. -/
theorem Sound.distinctKeys (hSound : h.Sound) :
    h.fields.Pairwise fun field other => sameIgnoringCase field.1 other.1 = false := by
  have hDistinct := hSound.distinct
  rw [fieldNames, List.Nodup, List.pairwise_map] at hDistinct
  refine hDistinct.imp_of_mem fun {field other} hField hOther hNe => ?_
  have hCanonical : canonicalName field.1 = field.1 ∧ canonicalName other.1 = other.1 :=
    ⟨hSound.canonical _ (List.mem_map_of_mem hField), hSound.canonical _ (List.mem_map_of_mem hOther)⟩
  rw [Bool.eq_false_iff, ne_eq, ← canonicalName_eq_iff, hCanonical.1, hCanonical.2]
  exact hNe

/-- In a sound store the keys differ because the names do. -/
theorem Lawful.of_sound (hSound : h.Sound) (hFields : ∀ field ∈ h.fields, field.1 ≠ setCookieName)
    (hCookies : (h.cookies.map Cookie.name).Nodup) : h.Lawful :=
  ⟨hSound, hSound.distinctKeys, hFields, hCookies⟩

theorem lawful_empty : Lawful {} :=
  .of_sound (sound_of_built .empty) (by simp) (by simp)

theorem Lawful.insert (hLawful : h.Lawful) (hAccept : HeaderBlock.isAcceptable name value = true) :
    (h.insert (canonicalName name) value).Lawful := by
  obtain ⟨hToken, hValue, hCookie⟩ := of_isAcceptable hAccept
  refine .of_sound (hLawful.toSound.insert (canonicalName_canonicalName name) hToken hValue) ?_
    hLawful.distinctCookies
  intro field hMem
  rcases mem_insertField hMem with rfl | hOld
  · exact hCookie
  · exact hLawful.noSetCookie field hOld

theorem Lawful.remove (hLawful : h.Lawful) : (h.remove name).Lawful :=
  .of_sound hLawful.toSound.remove (fun field hMem => hLawful.noSetCookie field (List.mem_of_mem_filter hMem))
    hLawful.distinctCookies

/-- A cookie takes the place of the one with its name, or stands behind all others. -/
theorem names_insertCookie (cookies : List Cookie) :
    (insertCookie c cookies).map Cookie.name =
      if c.name ∈ cookies.map Cookie.name then cookies.map Cookie.name
      else cookies.map Cookie.name ++ [c.name] := by
  induction cookies with
  | nil => simp [insertCookie]
  | cons d cookies ih =>
    by_cases hName : d.name = c.name
    · simp [insertCookie, hName]
    · have hBeq : (d.name == c.name) = false := beq_false_of_ne hName
      simp only [insertCookie, hBeq, Bool.false_eq_true, if_false, List.map_cons, ih, List.mem_cons,
        Ne.symm hName, false_or]
      split <;> rfl

theorem Lawful.setCookie (hLawful : h.Lawful) (hSet : h.setCookie c = (.ok (), h')) : h'.Lawful := by
  have hSound := hLawful.toSound.setCookie hSet
  obtain ⟨-, rfl⟩ := setCookie_eq_ok_iff.mp hSet
  refine .of_sound hSound hLawful.noSetCookie ?_
  rw [names_insertCookie]
  split
  · exact hLawful.distinctCookies
  · rename_i hNew
    refine List.nodup_append.mpr ⟨hLawful.distinctCookies, by simp, fun old hOld last hLast hSame => ?_⟩
    rw [List.mem_singleton] at hLast
    exact hNew (hLast ▸ hSame ▸ hOld)

theorem Lawful.removeCookie (hLawful : h.Lawful) : (h.removeCookie name).Lawful :=
  .of_sound hLawful.toSound.removeCookie hLawful.noSetCookie
    (hLawful.distinctCookies.sublist (List.filter_sublist.map _))

/-- A continuation line changes no name, and what it adds can be written. -/
theorem Lawful.appendFolded (hLawful : h.Lawful) (hExtra : isFieldValue extra = true) :
    (h.appendFolded name extra).Lawful := by
  have hNames : fieldNames (h.appendFolded name extra).fields = fieldNames h.fields := fieldNames_appendFolded
  have hOld : ∀ field ∈ (h.appendFolded name extra).fields, field.1 ∈ fieldNames h.fields := by
    intro field hMem
    rw [← hNames]
    exact List.mem_map_of_mem hMem
  have hJoined : ∀ old : String, isFieldValue old = true → isFieldValue (joinFolded old extra) = true := by
    intro old hValue
    have hSpace : isFieldValue " " = true := by decide
    unfold joinFolded
    split
    · exact hExtra
    · simp [hValue, hSpace, hExtra]
  have hSound : (h.appendFolded name extra).Sound := by
    refine ⟨?canonical, ?distinct, ?token, ?value, hLawful.cookie⟩
    case canonical =>
      intro n hMem
      rw [hNames] at hMem
      exact hLawful.canonical n hMem
    case distinct =>
      rw [hNames]
      exact hLawful.distinct
    case token =>
      intro field hMem
      obtain ⟨old, hField, hName⟩ := List.mem_map.mp (hOld field hMem)
      rw [← hName]
      exact hLawful.token old hField
    case value =>
      intro field hMem
      obtain ⟨⟨n, v⟩, hField, rfl⟩ := List.mem_map.mp hMem
      dsimp only
      split
      · exact hJoined v (hLawful.value _ hField)
      · exact hLawful.value _ hField
  refine .of_sound hSound ?_ hLawful.distinctCookies
  intro field hMem
  obtain ⟨old, hField, hName⟩ := List.mem_map.mp (hOld field hMem)
  rw [← hName]
  exact hLawful.noSetCookie old hField

end Headers

/-! ## Header blocks -/

namespace HeaderBlock

variable {b b' : HeaderBlock} {line : Bytes}

/-- Lines fed one by one; after an error the next line is fed all the same. -/
def feed (b : HeaderBlock) (lines : List Bytes) : HeaderBlock :=
  lines.foldl (fun b line => (b.push line).2) b

/-- A line that is an error leaves the store alone. -/
theorem headers_of_push_error {e : Error} (h : b.push line = (.error e, b')) : b'.headers = b.headers := by
  rw [(push_error h).1]

/-- Each line keeps the store of a block lawful, whatever it says. -/
theorem lawful_push (hLawful : b.headers.Lawful) (line : Bytes) : (b.push line).2.headers.Lawful := by
  rcases hPush : b.push line with ⟨_ | _, b'⟩
  · rw [headers_of_push_error hPush]
    exact hLawful
  · obtain ⟨-, -, -, hCases⟩ := push_cases hPush
    rcases hCases with ⟨-, hSame, -⟩ | ⟨text, name, -, -, hMore, -⟩ | ⟨name, value, -, hAccept, hNew, -⟩ |
      ⟨-, -, -, -, hSame, -⟩
    · rw [hSame]
      exact hLawful
    · rw [hMore]
      cases hText : foldedText? text with
      | none => exact hLawful
      | some extra =>
        refine hLawful.appendFolded ?_
        simp only [foldedText?, Option.ite_none_left_eq_some, Bool.or_eq_true, Bool.not_eq_true', not_or,
          Bool.not_eq_false, Option.some.injEq] at hText
        rw [← hText.2]
        exact hText.1.2
    · rw [hNew]
      exact hLawful.insert hAccept
    · rw [hSame]
      exact hLawful

theorem lawful_feed (hLawful : b.headers.Lawful) (lines : List Bytes) : (b.feed lines).headers.Lawful := by
  induction lines generalizing b with
  | nil => exact hLawful
  | cons line lines ih => exact ih (lawful_push hLawful line)

end HeaderBlock

/-! ## Calls -/

/-- A call that changes a store. -/
inductive StoreCall where
  | set (name value : String)
  | remove (name : String)
  | setCookie (c : Cookie)
  | setCookieValue (name value : String)
  | removeCookie (name : String)
  deriving DecidableEq, Repr

namespace StoreCall

/-- The answer of the call, and the store behind it. -/
def perform (call : StoreCall) (h : Headers) : Except HeaderError Unit × Headers :=
  match call with
  | .set name value => h.set name value
  | .remove name => (.ok (), h.remove name)
  | .setCookie c => h.setCookie c
  | .setCookieValue name value => h.setCookieValue name value
  | .removeCookie name => (.ok (), h.removeCookie name)

/-- What the call means for the field with this key: nothing, or that it is gone, or its new value. -/
def effect? (key : List Char) : StoreCall → Option (Option String)
  | .set name value =>
    if nameKey name = key ∧ HeaderBlock.isAcceptable name value = true then some (some value) else none
  | .remove name => if nameKey name = key then some none else none
  | .setCookie _ | .setCookieValue _ _ | .removeCookie _ => none

end StoreCall

/-- The field that a history leaves under a key. -/
structure HeldField where
  value : String
  /-- How many calls came before the one that first set the field since it was last removed. -/
  since : Nat
  deriving DecidableEq, Repr

/-- What a history says of a key.  The latest call stands first. -/
def heldField? (key : List Char) : List StoreCall → Option HeldField
  | [] => none
  | call :: earlier =>
    match call.effect? key with
    | none => heldField? key earlier
    | some none => none
    | some (some value) =>
      some { value, since := ((heldField? key earlier).map (·.since)).getD earlier.length }

/-- How many calls came before the one at which the field with this key came to stay. -/
def heldSince? (key : List Char) (history : List StoreCall) : Option Nat :=
  (heldField? key history).map (·.since)

namespace Headers

/-- The keys of the stored fields, in their order. -/
def keys (h : Headers) : List (List Char) :=
  h.fields.map fun field => nameKey field.1

/-- The store behind a history that began with the empty store.  The latest call stands first. -/
def after : List StoreCall → Headers
  | [] => {}
  | call :: earlier => (call.perform (after earlier)).2

/-- A store holds what its history says: each field with the value that was set last, in the order in which the fields
came to stay. -/
structure Reflects (h : Headers) (history : List StoreCall) : Prop where
  get? : ∀ name, h.get? name = (heldField? (nameKey name) history).map (·.value)
  has : ∀ name, h.has name = (heldField? (nameKey name) history).isSome
  keys : ∀ key, key ∈ h.keys ↔ (heldField? key history).isSome = true
  size : h.size = {key | (heldField? key history).isSome = true}.ncard
  order : h.keys.Pairwise fun key other =>
    ∀ first ∈ heldSince? key history, ∀ second ∈ heldSince? other history, first < second

end Headers

/-! ## What a call does to what is held -/

section Histories

variable {history : List StoreCall} {call : StoreCall} {key : List Char} {name value : String} {h h' : Headers}

theorem heldField?_of_untouched (hEffect : call.effect? key = none) :
    heldField? key (call :: history) = heldField? key history := by
  simp [heldField?, hEffect]

theorem heldField?_of_removed (hEffect : call.effect? key = some none) : heldField? key (call :: history) = none := by
  simp [heldField?, hEffect]

theorem heldField?_of_set (hEffect : call.effect? key = some (some value)) :
    heldField? key (call :: history) = some { value, since := (heldSince? key history).getD history.length } := by
  simp [heldField?, hEffect, heldSince?]

theorem heldSince?_of_untouched (hEffect : call.effect? key = none) :
    heldSince? key (call :: history) = heldSince? key history := by
  rw [heldSince?, heldField?_of_untouched hEffect, heldSince?]

/-- A field that is there stays where it came to stay, also when it gets a new value. -/
theorem heldSince?_of_set (hEffect : call.effect? key = some (some value)) :
    heldSince? key (call :: history) = some ((heldSince? key history).getD history.length) := by
  conv_lhs => rw [heldSince?, heldField?_of_set hEffect, Option.map_some]

/-- Whatever field is set, those that are there keep their places. -/
theorem heldSince?_of_stays {since : Nat} (hAccept : HeaderBlock.isAcceptable name value = true)
    (hSince : heldSince? key history = some since) : heldSince? key (.set name value :: history) = some since := by
  by_cases hSame : nameKey name = key
  · have hSet : (StoreCall.set name value).effect? key = some (some value) := by
      simp [StoreCall.effect?, hSame, hAccept]
    rw [heldSince?_of_set hSet, hSince, Option.getD_some]
  · have hOther : (StoreCall.set name value).effect? key = none := by simp [StoreCall.effect?, hSame]
    rw [heldSince?_of_untouched hOther, hSince]

/-- A field came to stay at one of the calls of the history. -/
theorem lt_length_of_heldSince? {since : Nat} (hSince : heldSince? key history = some since) :
    since < history.length := by
  induction history generalizing since with
  | nil => simp [heldSince?, heldField?] at hSince
  | cons call history ih =>
    rw [List.length_cons]
    rcases hEffect : call.effect? key with _ | _ | value
    · rw [heldSince?_of_untouched hEffect] at hSince
      have := ih hSince
      omega
    · simp [heldSince?, heldField?_of_removed hEffect] at hSince
    · rw [heldSince?_of_set hEffect, Option.some.injEq] at hSince
      rw [← hSince]
      cases hOld : heldSince? key history with
      | none => simp
      | some old =>
        have := ih hOld
        rw [Option.getD_some]
        omega

namespace Headers

theorem mem_keys_iff (hFields : IsCanonical h.fields) :
    nameKey name ∈ h.keys ↔ canonicalName name ∈ fieldNames h.fields := by
  simp only [keys, fieldNames, List.mem_map]
  constructor
  · rintro ⟨field, hMem, hKey⟩
    have hName : canonicalName field.1 = field.1 := hFields _ (List.mem_map_of_mem hMem)
    exact ⟨field, hMem, by rw [← hName, canonicalName_eq_iff, ← nameKey_eq_iff, hKey]⟩
  · rintro ⟨field, hMem, hName⟩
    exact ⟨field, hMem, by rw [hName, nameKey_canonicalName]⟩

/-- A key that is there keeps its place, and a new one comes behind all others. -/
theorem keys_insert (hFields : IsCanonical h.fields) :
    (h.insert (canonicalName name) value).keys =
      if nameKey name ∈ h.keys then h.keys else h.keys ++ [nameKey name] := by
  split
  · rename_i hHere
    have hNames : fieldNames (insertField (canonicalName name) value h.fields) = fieldNames h.fields :=
      fieldNames_insertField_of_mem ((mem_keys_iff hFields).mp hHere)
    have hKeys : ∀ g : Headers, g.keys = (fieldNames g.fields).map nameKey := by simp [keys, fieldNames]
    rw [hKeys, hKeys, Headers.insert, hNames]
  · rename_i hNew
    have hLast : (h.insert (canonicalName name) value).fields = h.fields ++ [(canonicalName name, value)] :=
      insertField_of_not_mem fun hHere => hNew ((mem_keys_iff hFields).mpr hHere)
    simp [keys, hLast]

theorem keys_remove : (h.remove name).keys = h.keys.filter fun key => key != nameKey name := by
  simp only [keys, remove, List.filter_map]
  rfl

theorem Lawful.nodup_keys (hLawful : h.Lawful) : h.keys.Nodup := by
  rw [keys, List.Nodup, List.pairwise_map]
  refine hLawful.distinctKeys.imp fun {field other} hDiffer hSame => ?_
  rw [nameKey_eq_iff, hDiffer] at hSame
  contradiction

/-- Of a lawful store it is enough to compare lookups, keys and order. -/
theorem Reflects.of_lawful (hLawful : h.Lawful)
    (hGet : ∀ name, h.get? name = (heldField? (nameKey name) history).map (·.value))
    (hKeys : ∀ key, key ∈ h.keys ↔ (heldField? key history).isSome = true)
    (hOrder : h.keys.Pairwise fun key other =>
      ∀ first ∈ heldSince? key history, ∀ second ∈ heldSince? other history, first < second) :
    h.Reflects history := by
  refine ⟨hGet, fun name => ?_, hKeys, ?_, hOrder⟩
  · rw [Headers.has, hGet, Option.isSome_map]
  · have hSet : {key | (heldField? key history).isSome = true} = (h.keys.toFinset : Set (List Char)) := by
      ext key
      simpa using (hKeys key).symm
    rw [hSet, Set.ncard_coe_finset, List.toFinset_card_of_nodup hLawful.nodup_keys, Headers.keys,
      List.length_map, Headers.size]

/-- A call that touches no field leaves the lookups, the keys and the order as they were. -/
theorem Reflects.of_untouched (hReflects : h.Reflects history) (hLawful : h'.Lawful) (hFields : h'.fields = h.fields)
    (hEffect : ∀ key, call.effect? key = none) : h'.Reflects (call :: history) := by
  have hHeld : ∀ key, heldField? key (call :: history) = heldField? key history :=
    fun key => heldField?_of_untouched (hEffect key)
  have hKeys : h'.keys = h.keys := by rw [Headers.keys, Headers.keys, hFields]
  refine .of_lawful hLawful (fun name => ?_) (fun key => ?_) ?_
  · have hFound : h'.get? name = h.get? name := by simp only [Headers.get?, hFields]
    rw [hHeld, hFound]
    exact hReflects.get? name
  · rw [hHeld, hKeys]
    exact hReflects.keys key
  · simp only [heldSince?, hHeld, hKeys]
    exact hReflects.order

/-- A field that is set replaces the one with its key in place, or comes to stand behind all others. -/
theorem Reflects.insert (hReflects : h.Reflects history) (hLawful : h.Lawful)
    (hAccept : HeaderBlock.isAcceptable name value = true) :
    (h.insert (canonicalName name) value).Reflects (.set name value :: history) := by
  have hSet : (StoreCall.set name value).effect? (nameKey name) = some (some value) := by
    simp [StoreCall.effect?, hAccept]
  have hOther : ∀ key, nameKey name ≠ key → (StoreCall.set name value).effect? key = none :=
    fun key hNe => by simp [StoreCall.effect?, hNe]
  refine .of_lawful (hLawful.insert hAccept) (fun other => ?get) (fun key => ?keys) ?order
  case get =>
    by_cases hSame : nameKey name = nameKey other
    · have hFound : sameIgnoringCase (canonicalName name) other = true := by
        rw [← nameKey_eq_iff, nameKey_canonicalName, hSame]
      rw [get?_insert_of_eq hLawful.canonical (canonicalName_canonicalName name) hFound, ← hSame,
        heldField?_of_set hSet]
      rfl
    · have hDiffer : sameIgnoringCase (canonicalName name) other = false := by
        rw [Bool.eq_false_iff, ne_eq, ← nameKey_eq_iff, nameKey_canonicalName]
        exact hSame
      rw [get?_insert_of_ne h hDiffer, heldField?_of_untouched (hOther _ hSame)]
      exact hReflects.get? other
  case keys =>
    rw [keys_insert hLawful.canonical]
    by_cases hSame : nameKey name = key
    · rw [← hSame, heldField?_of_set hSet]
      split <;> simp_all
    · rw [heldField?_of_untouched (hOther _ hSame), ← hReflects.keys key]
      split <;> simp [Ne.symm hSame]
  case order =>
    have hSince : ∀ key ∈ h.keys, heldSince? key (.set name value :: history) = heldSince? key history := by
      intro key hKey
      obtain ⟨old, hOld⟩ := Option.isSome_iff_exists.mp ((hReflects.keys key).mp hKey)
      have hOldSince : heldSince? key history = some old.since := by rw [heldSince?, hOld, Option.map_some]
      rw [hOldSince, heldSince?_of_stays hAccept hOldSince]
    have hOrder : h.keys.Pairwise fun key other => ∀ first ∈ heldSince? key (.set name value :: history),
        ∀ second ∈ heldSince? other (.set name value :: history), first < second := by
      refine hReflects.order.imp_of_mem fun {key other} hKey hOther hLess => ?_
      rw [hSince key hKey, hSince other hOther]
      exact hLess
    rw [keys_insert hLawful.canonical]
    split
    · exact hOrder
    · rename_i hNew
      refine List.pairwise_append.mpr ⟨hOrder, List.pairwise_singleton _ _, ?_⟩
      intro key hKey last hLast first hFirst second hSecond
      obtain rfl := List.mem_singleton.mp hLast
      have hNone : heldSince? (nameKey name) history = none := by
        rw [heldSince?, Option.map_eq_none_iff, ← Option.not_isSome_iff_eq_none, ← hReflects.keys]
        exact hNew
      rw [hSince key hKey] at hFirst
      rw [heldSince?_of_set hSet, hNone, Option.getD_none, Option.mem_some_iff] at hSecond
      rw [← hSecond]
      exact lt_length_of_heldSince? hFirst

/-- A field that is removed is gone, and the others stay in order. -/
theorem Reflects.remove (hReflects : h.Reflects history) (hLawful : h.Lawful) :
    (h.remove name).Reflects (.remove name :: history) := by
  have hGone : heldField? (nameKey name) (.remove name :: history) = none :=
    heldField?_of_removed (by simp [StoreCall.effect?])
  have hOther : ∀ key, nameKey name ≠ key → heldField? key (.remove name :: history) = heldField? key history :=
    fun key hNe => heldField?_of_untouched (by simp [StoreCall.effect?, hNe])
  refine .of_lawful hLawful.remove (fun other => ?get) (fun key => ?keys) ?order
  case get =>
    by_cases hSame : nameKey name = nameKey other
    · rw [get?_remove_of_eq h (nameKey_eq_iff.mp hSame), ← hSame, hGone]
      rfl
    · have hDiffer : sameIgnoringCase name other = false := by
        rw [Bool.eq_false_iff, ne_eq, ← nameKey_eq_iff]
        exact hSame
      rw [get?_remove_of_ne h hDiffer, hOther _ hSame]
      exact hReflects.get? other
  case keys =>
    rw [keys_remove, List.mem_filter, bne_iff_ne]
    by_cases hSame : nameKey name = key
    · simp [← hSame, hGone]
    · rw [hOther _ hSame, ← hReflects.keys key]
      simp [Ne.symm hSame]
  case order =>
    rw [keys_remove]
    refine (hReflects.order.filter _).imp_of_mem fun {key other} hKey hKey' hLess => ?_
    have hKept : ∀ k, k ∈ h.keys.filter (fun key => key != nameKey name) →
        heldSince? k (.remove name :: history) = heldSince? k history := by
      intro k hMem
      rw [List.mem_filter, bne_iff_ne] at hMem
      rw [heldSince?, hOther k (Ne.symm hMem.2), heldSince?]
    rw [hKept key hKey, hKept other hKey']
    exact hLess

/-! ## All histories -/

theorem lawful_reflects_empty : Lawful {} ∧ Reflects {} [] := by
  refine ⟨lawful_empty, .of_lawful lawful_empty (fun name => ?_) (fun key => ?_) ?_⟩
  · rfl
  · simp [keys, heldField?]
  · simp [keys]

/-- A call that stores a cookie, or is refused, leaves the fields alone. -/
theorem lawful_reflects_of_setCookie {c : Cookie} (hLawful : h.Lawful) (hReflects : h.Reflects history)
    (hPerform : call.perform h = h.setCookie c) (hEffect : ∀ key, call.effect? key = none) :
    (call.perform h).2.Lawful ∧ (call.perform h).2.Reflects (call :: history) := by
  rw [hPerform]
  rcases setCookie_cases h c with ⟨-, hSet⟩ | ⟨e, -, hSet⟩
  · have hAfter := hLawful.setCookie hSet
    rw [hSet]
    exact ⟨hAfter, hReflects.of_untouched hAfter rfl hEffect⟩
  · rw [hSet]
    exact ⟨hLawful, hReflects.of_untouched hLawful rfl hEffect⟩

/-- Each call keeps a store lawful and in agreement with its history. -/
theorem lawful_reflects_perform (hLawful : h.Lawful) (hReflects : h.Reflects history) (call : StoreCall) :
    (call.perform h).2.Lawful ∧ (call.perform h).2.Reflects (call :: history) := by
  cases call with
  | set name value =>
    rw [StoreCall.perform]
    rcases set_cases h name value with ⟨hAccept, hSet⟩ | ⟨hRefuse, e, hSet⟩
    · rw [hSet]
      exact ⟨hLawful.insert hAccept, hReflects.insert hLawful hAccept⟩
    · rw [hSet]
      exact ⟨hLawful, hReflects.of_untouched hLawful rfl fun key => by simp [StoreCall.effect?, hRefuse]⟩
  | remove name => exact ⟨hLawful.remove, hReflects.remove hLawful⟩
  | setCookie c => exact lawful_reflects_of_setCookie hLawful hReflects rfl fun _ => rfl
  | setCookieValue name value => exact lawful_reflects_of_setCookie hLawful hReflects rfl fun _ => rfl
  | removeCookie name => exact ⟨hLawful.removeCookie, hReflects.of_untouched hLawful.removeCookie rfl fun _ => rfl⟩

/-- A call that is refused leaves the store as it was. -/
theorem StoreCall.snd_perform_of_error {e : HeaderError} (hError : (call.perform h).1 = .error e) :
    (call.perform h).2 = h := by
  have hCookie : ∀ c, (h.setCookie c).1 = .error e → (h.setCookie c).2 = h := by
    intro c hRefused
    rcases setCookie_cases h c with ⟨-, hSet⟩ | ⟨_, -, hSet⟩
    · rw [hSet] at hRefused
      cases hRefused
    · rw [hSet]
  cases call with
  | set name value =>
    rw [StoreCall.perform] at hError ⊢
    rcases set_cases h name value with ⟨-, hSet⟩ | ⟨-, _, hSet⟩
    · rw [hSet] at hError
      cases hError
    · rw [hSet]
  | remove name => cases hError
  | setCookie c => exact hCookie c hError
  | setCookieValue name value => exact hCookie _ hError
  | removeCookie name => cases hError

theorem lawful_reflects_after (history : List StoreCall) : (after history).Lawful ∧ (after history).Reflects history := by
  induction history with
  | nil => exact lawful_reflects_empty
  | cons call history ih => exact lawful_reflects_perform ih.1 ih.2 call

end Headers

end Histories

/-- **A store is the map that its history describes.**  Whatever calls it has seen, it is lawful and agrees with them on
lookups, number and order of the fields, and a call that is refused leaves it as it was.  A header block keeps its store
lawful too, whatever lines it is fed, and a line that is an error leaves the store alone.  All of this rests on the
canonical case of names: it is the same exactly for names that differ in letter case only. -/
theorem Headers.lawful_and_reflects :
    (∀ history : List StoreCall,
      (after history).Lawful ∧ (after history).Reflects history ∧
        ∀ call e, (StoreCall.perform call (after history)).1 = .error e →
          (call.perform (after history)).2 = after history) ∧
      (∀ (maxSize : Nat) (lines : List Bytes),
        (HeaderBlock.feed { maxSize } lines).headers.Lawful ∧
          ∀ line e, (HeaderBlock.push line (.feed { maxSize } lines)).1 = .error e →
            (HeaderBlock.push line (.feed { maxSize } lines)).2.headers = (HeaderBlock.feed { maxSize } lines).headers) ∧
      ∀ a b : String, canonicalName a = canonicalName b ↔ sameIgnoringCase a b = true := by
  refine ⟨fun history => ?calls, fun maxSize lines => ?block, fun a b => canonicalName_eq_iff⟩
  case calls =>
    obtain ⟨hLawful, hReflects⟩ := lawful_reflects_after history
    exact ⟨hLawful, hReflects, fun call e hError => StoreCall.snd_perform_of_error hError⟩
  case block =>
    refine ⟨HeaderBlock.lawful_feed lawful_empty lines, fun line e hError => ?_⟩
    exact HeaderBlock.headers_of_push_error (Prod.ext hError rfl)

/-- A field that was removed and set again stands behind the one that stayed. -/
example :
    (Headers.after [.set "x-ID" "2", .remove "X-id", .set "server" "tern", .set "x-id" "1"]).fields =
      [("Server", "tern"), ("X-Id", "2")] := by
  decide +kernel

end HttpServer
