import HttpServer.Text.Split
import HttpServer.Url

/-!
# Queries — the keys and values of a query string or a form

A query maps each key to the values it was given, in the order in which they came; keys stand in the order
of their first value.  `Query.parse` reads the form encoding: pairs separated by `&`, a key and a value
separated by the first `=`, both decoded leniently.  Empty pairs are skipped, and a pair without `=` has
the empty value.
-/

namespace HttpServer

/-- Keys with their values, each key once. -/
structure Query where
  entries : List (String × List String) := []
  deriving DecidableEq, Repr

namespace Query

/-- All values of `key`, in order; none when the key is absent. -/
def getAll (q : Query) (key : String) : List String :=
  (q.entries.lookup key).getD []

/-- The first value of `key`. -/
def get? (q : Query) (key : String) : Option String :=
  (q.getAll key).head?

/-- Whether `key` is there. -/
def has (q : Query) (key : String) : Bool :=
  (q.entries.lookup key).isSome

/-- Number of keys. -/
def size (q : Query) : Nat :=
  q.entries.length

/-- Whether there is no key. -/
def isEmpty (q : Query) : Bool :=
  q.entries.isEmpty

/-- Change the values of `key`, which has none before if it is absent. -/
def alter (f : List String → List String) (key : String) :
    List (String × List String) → List (String × List String)
  | [] => [(key, f [])]
  | (k, values) :: rest =>
    if k == key then (k, f values) :: rest else (k, values) :: alter f key rest

/-- Give `key` the one value `value`. -/
def set (q : Query) (key value : String) : Query :=
  ⟨alter (fun _ => [value]) key q.entries⟩

/-- Give `key` one more value, behind those it has. -/
def add (q : Query) (key value : String) : Query :=
  ⟨alter (· ++ [value]) key q.entries⟩

/-- Forget `key`. -/
def remove (q : Query) (key : String) : Query :=
  ⟨q.entries.filter (·.1 != key)⟩

theorem lookup_alter (f : List String → List String) (key k : String) (entries : List (String × List String)) :
    (alter f key entries).lookup k =
      if k = key then some (f ((entries.lookup key).getD [])) else entries.lookup k := by
  have hBeq : (k == key) = decide (k = key) := rfl
  induction entries with
  | nil => by_cases hKey : k = key <;> simp [alter, List.lookup_cons, hBeq, hKey]
  | cons entry entries ih =>
    obtain ⟨first, values⟩ := entry
    by_cases hFirst : first = key
    · by_cases hKey : k = key <;> simp [alter, List.lookup_cons, hFirst, hBeq, hKey]
    · by_cases hKey : k = key
      · have hOther : (key == first) = false := beq_eq_false_iff_ne.mpr (Ne.symm hFirst)
        simpa [alter, List.lookup_cons, hFirst, hKey, hOther] using ih
      · simp [alter, List.lookup_cons, hFirst, hKey, ih]

/-- A key that is there keeps its place, and one that is not comes behind all others. -/
theorem map_fst_alter (f : List String → List String) (key : String) (entries : List (String × List String)) :
    (alter f key entries).map (·.1) =
      if key ∈ entries.map (·.1) then entries.map (·.1) else entries.map (·.1) ++ [key] := by
  induction entries with
  | nil => rfl
  | cons entry entries ih =>
    obtain ⟨first, values⟩ := entry
    by_cases hFirst : first = key
    · simp [alter, hFirst]
    · have hAlter : alter f key ((first, values) :: entries) = (first, values) :: alter f key entries := by
        simp [alter, hFirst]
      rw [hAlter, List.map_cons, ih, List.map_cons]
      by_cases hMem : key ∈ entries.map (·.1)
      · rw [if_pos hMem, if_pos (.tail _ hMem)]
      · rw [if_neg hMem, if_neg (by simpa [Ne.symm hFirst] using hMem), List.cons_append]

theorem getAll_add (q : Query) (key value k : String) :
    (q.add key value).getAll k = q.getAll k ++ if key = k then [value] else [] := by
  rw [getAll, add, lookup_alter]
  by_cases hKey : k = key
  · simp [hKey, getAll]
  · simp [hKey, Ne.symm hKey, getAll]

theorem has_iff_mem {q : Query} {key : String} : q.has key = true ↔ key ∈ q.entries.map (·.1) := by
  simp [has, List.lookup_isSome_iff]

/-- The decoded key and value of one pair. -/
def parsePair (pair : List Char) : String × String :=
  let (key, value) := (cutFirst '=' pair).getD (pair, [])
  (Percent.decodeForm (String.ofList key), Percent.decodeForm (String.ofList value))

/-- The pairs of a form, in order. -/
def parsePairs (raw : String) : List (String × String) :=
  ((splitOn '&' raw.toList).filter (!·.isEmpty)).map parsePair

/-- The query that a query string or a form stands for. -/
def parse (raw : String) : Query :=
  (parsePairs raw).foldl (fun q (key, value) => q.add key value) {}

end Query

/-- The decoded query of a target. -/
def Url.queryParams (url : Url) : Query :=
  Query.parse url.query

end HttpServer
