/-!
# Cutting a list into chunks of equal length
-/

namespace HttpServer

/-- The list in chunks of `n`; the last one may be shorter.  There are none if `n` is zero. -/
def chunksOf {α : Type} (n : Nat) (xs : List α) : List (List α) :=
  if xs.isEmpty ∨ n = 0 then []
  else xs.take n :: chunksOf n (xs.drop n)
termination_by xs.length
decreasing_by
  rename_i h
  simp only [not_or, Bool.not_eq_true, List.isEmpty_eq_false_iff] at h
  have := List.length_pos_iff.mpr h.1
  simp only [List.length_drop]
  omega

end HttpServer
