import HttpServer.Text.Blank
import HttpServer.Text.Number
import HttpServer.Text.Split
import HttpServer.Headers.Name

/-!
# Values with an inner form — lengths, token lists and cookie pairs
-/

namespace HttpServer

/-- The largest length that a `Content-Length` field can declare. -/
def maxContentLength : Nat := UInt64.size - 1

/-- The length that a `Content-Length` value declares: a plain decimal numeral between blanks. -/
def contentLength? (raw : String) : Option Nat :=
  readDecimal? maxContentLength (trim raw.toList)

/-- Whether a comma-separated list holds `token`, in either letter case and between blanks. -/
def hasToken (raw token : String) : Bool :=
  (splitOn ',' raw.toList).any fun part => sameIgnoringCase (String.ofList (trim part)) token

/-- Put a character in front of the first part. -/
def consFirst (c : Char) : List (List Char) → List (List Char)
  | [] => [[c]]
  | part :: parts => (c :: part) :: parts

/-- The parts of a text between occurrences of a semicolon with a space behind it. -/
def splitCookies : List Char → List (List Char)
  | [] => [[]]
  | ';' :: ' ' :: rest => [] :: splitCookies rest
  | c :: rest => consFirst c (splitCookies rest)

/-- The name and value of one cookie pair; `none` when either is blank or there is no `=`. -/
def cookiePair? (pair : List Char) : Option (String × String) :=
  match cutFirst '=' pair with
  | none => none
  | some (name, value) =>
    let name := trim name
    let value := trim value
    if name.isEmpty || value.isEmpty then none else some (String.ofList name, String.ofList value)

/-- Give `key` the value `value` in a list of pairs, in its place if it is there. -/
def putPair (key value : String) : List (String × String) → List (String × String)
  | [] => [(key, value)]
  | (k, v) :: rest => if k == key then (k, value) :: rest else (k, v) :: putPair key value rest

theorem putPair_of_not_mem {key value : String} {pairs : List (String × String)} (h : key ∉ pairs.map (·.1)) :
    putPair key value pairs = pairs ++ [(key, value)] := by
  induction pairs with
  | nil => rfl
  | cons pair pairs ih =>
    obtain ⟨k, v⟩ := pair
    simp only [List.map_cons, List.mem_cons, not_or] at h
    simp [putPair, Ne.symm h.1, ih h.2]

/-- Pairs that have keys of their own are put one behind the other. -/
theorem foldl_putPair {pairs more : List (String × String)} (h : ((pairs ++ more).map (·.1)).Nodup) :
    more.foldl (fun pairs (k, v) => putPair k v pairs) pairs = pairs ++ more := by
  induction more generalizing pairs with
  | nil => simp
  | cons pair more ih =>
    obtain ⟨k, v⟩ := pair
    have hKey : k ∉ pairs.map (·.1) := by
      simp only [List.map_append, List.map_cons, List.nodup_append] at h
      exact fun hMem => h.2.2 k hMem k (by simp) rfl
    simp only [List.foldl_cons]
    rw [putPair_of_not_mem hKey, ih (by simpa using h)]
    simp

theorem mem_of_mem_putPair {key value : String} {pair : String × String} {pairs : List (String × String)}
    (h : pair ∈ putPair key value pairs) : pair = (key, value) ∨ pair ∈ pairs := by
  induction pairs with
  | nil => simpa [putPair] using h
  | cons first pairs ih =>
    obtain ⟨k, v⟩ := first
    unfold putPair at h
    split at h
    · rename_i hKey
      rcases List.mem_cons.mp h with rfl | hRest
      · exact .inl (by rw [beq_iff_eq.mp hKey])
      · exact .inr (.tail _ hRest)
    · rcases List.mem_cons.mp h with rfl | hRest
      · exact .inr (.head _)
      · exact (ih hRest).imp_right (.tail _)

/-- Putting pairs brings in no pair that is not one of them. -/
theorem mem_of_mem_foldl_putPair {pair : String × String} {pairs more : List (String × String)}
    (h : pair ∈ more.foldl (fun pairs (k, v) => putPair k v pairs) pairs) : pair ∈ pairs ∨ pair ∈ more := by
  induction more generalizing pairs with
  | nil => exact .inl h
  | cons first more ih =>
    rcases ih h with hPut | hMore
    · rcases mem_of_mem_putPair hPut with rfl | hPairs
      · exact .inr (.head _)
      · exact .inl hPairs
    · exact .inr (.tail _ hMore)

/-- The cookies that a `Cookie` value brings; a name that comes twice keeps its last value. -/
def cookiePairs (raw : String) : List (String × String) :=
  ((splitCookies raw.toList).filterMap cookiePair?).foldl (fun pairs (k, v) => putPair k v pairs) []

end HttpServer
