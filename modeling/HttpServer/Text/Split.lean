/-!
# Splitting — cutting a sequence at a separator

Targets, queries, header lines and cookie lists are all cut at single characters.  Three cuts are enough:

* `splitOn` — at every separator; the result has one part more than there are separators;
* `cutFirst` — at the first separator, into what stands before and what stands after it;
* `cutLast` — at the last separator.

The functions work on any type with equality, so that byte lines and texts share them.
-/

namespace HttpServer

variable {α : Type} [BEq α]

/-- The parts of `xs` between separators: the first part, and the parts that follow it. -/
def splitParts (sep : α) (xs : List α) : List α × List (List α) :=
  xs.foldr (fun x (part, parts) => if x == sep then ([], part :: parts) else (x :: part, parts)) ([], [])

/-- All parts of `xs` between separators; empty parts are kept, and an empty sequence has one empty part. -/
def splitOn (sep : α) (xs : List α) : List (List α) :=
  (splitParts sep xs).1 :: (splitParts sep xs).2

/-- What stands before and after the first `sep`; `none` when there is none. -/
def cutFirst (sep : α) (xs : List α) : Option (List α × List α) :=
  match xs.dropWhile (· != sep) with
  | [] => none
  | _ :: rest => some (xs.takeWhile (· != sep), rest)

/-- What stands before and after the last `sep`; `none` when there is none. -/
def cutLast (sep : α) (xs : List α) : Option (List α × List α) :=
  (cutFirst sep xs.reverse).map fun (after, before) => (before.reverse, after.reverse)

/-- Whether `part` stands somewhere in a sequence. -/
def occursIn (part : List α) : List α → Bool
  | [] => part.isEmpty
  | x :: xs => part.isPrefixOf (x :: xs) || occursIn part xs

/-- Put `new` in the place of every occurrence of `old`, from the left. -/
def replaceAll (old new xs : List α) : List α :=
  match xs with
  | [] => []
  | x :: rest =>
    if !old.isEmpty && old.isPrefixOf (x :: rest) then new ++ replaceAll old new (rest.drop (old.length - 1))
    else x :: replaceAll old new rest
termination_by xs.length
decreasing_by
  · simp only [List.length_drop, List.length_cons]
    omega
  · simp

/-- A cut loses nothing but tells where the separator stood. -/
theorem cutFirst_eq_some [LawfulBEq α] {sep : α} {xs front rest : List α}
    (h : cutFirst sep xs = some (front, rest)) : xs = front ++ sep :: rest := by
  unfold cutFirst at h
  split at h
  · simp at h
  · rename_i b after hDrop
    simp only [Option.some.injEq, Prod.mk.injEq] at h
    obtain ⟨rfl, rfl⟩ := h
    have hb : b = sep := by
      have := List.head_dropWhile_not (· != sep) (by rw [hDrop]; simp)
      simpa [hDrop] using this
    subst hb
    rw [← hDrop, List.takeWhile_append_dropWhile]

end HttpServer
