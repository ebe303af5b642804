import HttpServer.Text.Line
import Mathlib.Data.List.TakeWhile

/-!
# Cuts and lines, stated on the bytes

A cut at the first separator is the only way to write a sequence as a part without that separator, the
separator, and a rest.  So a cut does not depend on how far the rest is known (`cutFirst_append`), and the
lines of a byte string come off its front one by one (`linesOf_line`).

A line and the bytes before its line feed differ by one carriage return at most (`length_le_stripReturn`);
this is all that a ceiling may rely on while the end of a line has not been seen.
-/

namespace HttpServer

section Cuts

variable {α : Type} [BEq α] [LawfulBEq α] {sep : α} {xs ys front rest : List α}

private theorem ne_sep_of_not_mem (h : sep ∉ front) : ∀ x ∈ front, (x != sep) = true := by
  intro x hx
  rw [bne_iff_ne]
  rintro rfl
  exact h hx

/-- The cut at the first separator, said without the search for it. -/
theorem cutFirst_eq_some_iff :
    cutFirst sep xs = some (front, rest) ↔ xs = front ++ sep :: rest ∧ sep ∉ front := by
  constructor
  · intro h
    refine ⟨cutFirst_eq_some h, fun hMem => ?_⟩
    -- The front was taken while no separator showed, so none can be in it.
    unfold cutFirst at h
    split at h
    · simp at h
    · simp only [Option.some.injEq, Prod.mk.injEq] at h
      rw [← h.1] at hMem
      simpa using List.mem_takeWhile_imp hMem
  · rintro ⟨rfl, hFront⟩
    have hNe := ne_sep_of_not_mem hFront
    simp [cutFirst, List.dropWhile_append_of_pos hNe, List.takeWhile_append_of_pos hNe]

theorem cutFirst_eq_none_iff : cutFirst sep xs = none ↔ sep ∉ xs := by
  constructor
  · intro h hMem
    obtain ⟨front, rest, hSplit, hFront⟩ := List.eq_append_cons_of_mem hMem
    rw [cutFirst_eq_some_iff.mpr ⟨hSplit, hFront⟩] at h
    simp at h
  · intro h
    cases hCut : cutFirst sep xs with
    | none => rfl
    | some parts =>
      rw [cutFirst_eq_some hCut] at h
      simp at h

/-- The cut at the first separator, said with the place where it stands. -/
theorem cutFirst_eq_map_idxOf? (sep : α) (xs : List α) :
    cutFirst sep xs = (xs.idxOf? sep).map fun i => (xs.take i, xs.drop (i + 1)) := by
  cases hPlace : xs.idxOf? sep with
  | none => exact cutFirst_eq_none_iff.mpr (List.idxOf?_eq_none_iff.mp hPlace)
  | some i =>
    obtain ⟨hLength, hAt, hBefore⟩ := List.idxOf?_eq_some_iff.mp hPlace
    refine cutFirst_eq_some_iff.mpr ⟨?_, fun hMem => ?_⟩
    · rw [← hAt, ← List.drop_eq_getElem_cons hLength, List.take_append_drop]
    · obtain ⟨j, hFront, hSep⟩ := List.mem_iff_getElem.mp hMem
      rw [List.length_take] at hFront
      exact hBefore j (by omega) (by rwa [List.getElem_take] at hSep)

/-- What follows the first separator has no say in where it stands. -/
theorem cutFirst_append (h : cutFirst sep xs = some (front, rest)) :
    cutFirst sep (xs ++ ys) = some (front, rest ++ ys) := by
  rw [cutFirst_eq_some_iff] at h ⊢
  obtain ⟨rfl, hFront⟩ := h
  exact ⟨by simp, hFront⟩

/-- A part without separator only comes in front of the first cut of what follows it. -/
theorem cutFirst_append_of_none (h : cutFirst sep xs = none) :
    cutFirst sep (xs ++ ys) = (cutFirst sep ys).map fun (front, rest) => (xs ++ front, rest) := by
  have hXs : sep ∉ xs := cutFirst_eq_none_iff.mp h
  cases hCut : cutFirst sep ys with
  | none =>
    rw [cutFirst_eq_none_iff] at hCut
    simp only [Option.map_none, cutFirst_eq_none_iff, List.mem_append, not_or]
    exact ⟨hXs, hCut⟩
  | some parts =>
    obtain ⟨front, rest⟩ := parts
    obtain ⟨rfl, hFront⟩ := cutFirst_eq_some_iff.mp hCut
    refine cutFirst_eq_some_iff.mpr ⟨by simp, ?_⟩
    simp only [List.mem_append, not_or]
    exact ⟨hXs, hFront⟩

/-- The cut at the last separator, said without the search for it. -/
theorem cutLast_eq_some_iff :
    cutLast sep xs = some (front, rest) ↔ xs = front ++ sep :: rest ∧ sep ∉ rest := by
  constructor
  · intro h
    obtain ⟨⟨after, before⟩, hCut, hParts⟩ := Option.map_eq_some_iff.mp h
    obtain ⟨hReverse, hAfter⟩ := cutFirst_eq_some_iff.mp hCut
    simp only [Prod.mk.injEq] at hParts
    obtain ⟨rfl, rfl⟩ := hParts
    refine ⟨?_, by simpa using hAfter⟩
    rw [← List.reverse_reverse xs, hReverse]
    simp
  · rintro ⟨rfl, hRest⟩
    -- Read backwards, the last separator is the first one.
    have hReverse : (front ++ sep :: rest).reverse = rest.reverse ++ sep :: front.reverse := by simp
    have hCut : cutFirst sep (front ++ sep :: rest).reverse = some (rest.reverse, front.reverse) :=
      cutFirst_eq_some_iff.mpr ⟨hReverse, by simpa using hRest⟩
    rw [cutLast, hCut]
    simp

theorem splitParts_cons_of_ne {x : α} (h : x ≠ sep) :
    splitParts sep (x :: xs) = (x :: (splitParts sep xs).1, (splitParts sep xs).2) := by
  simp [splitParts, h]

/-- The parts of a sequence are what stands before the first separator, and the parts behind it. -/
theorem splitParts_of_cutFirst (h : cutFirst sep xs = some (front, rest)) :
    splitParts sep xs = (front, splitOn sep rest) := by
  obtain ⟨rfl, hFront⟩ := cutFirst_eq_some_iff.mp h
  -- The cut has been used up; it would stand in the way of the induction on the front.
  clear h
  induction front with
  | nil => simp [splitOn, splitParts]
  | cons x front ih =>
    have hx : x ≠ sep := fun h => hFront (by simp [h])
    have hRest : sep ∉ front := fun h => hFront (by simp [h])
    rw [List.cons_append, splitParts_cons_of_ne hx, ih hRest]

theorem splitOn_of_cutFirst (h : cutFirst sep xs = some (front, rest)) :
    splitOn sep xs = front :: splitOn sep rest := by
  rw [splitOn, splitParts_of_cutFirst h]

theorem splitOn_of_not_mem (h : sep ∉ xs) : splitOn sep xs = [xs] := by
  induction xs with
  | nil => rfl
  | cons x xs ih =>
    have hx : x ≠ sep := fun hEq => h (by simp [hEq])
    have hTail : splitOn sep xs = [xs] := ih fun hMem => h (by simp [hMem])
    simp only [splitOn, List.cons.injEq] at hTail
    rw [splitOn, splitParts_cons_of_ne hx, hTail.1, hTail.2]

/-- No part between separators holds one. -/
theorem not_mem_of_mem_splitOn {part : List α} (h : part ∈ splitOn sep xs) : sep ∉ part := by
  induction xs generalizing part with
  | nil =>
    obtain rfl : part = [] := by simpa [splitOn, splitParts] using h
    simp
  | cons x xs ih =>
    simp only [splitOn, List.mem_cons] at h ih
    by_cases hx : x = sep
    · rw [hx, splitParts_of_cutFirst (cutFirst_eq_some_iff.mpr ⟨(List.nil_append _).symm, List.not_mem_nil⟩)] at h
      rcases h with rfl | hRest
      · simp
      · exact ih (by simpa [splitOn] using hRest)
    · rw [splitParts_cons_of_ne hx] at h
      rcases h with rfl | hRest
      · simpa [Ne.symm hx] using ih (.inl rfl)
      · exact ih (.inr hRest)

/-- Parts with a separator in front of each are found again. -/
theorem splitOn_append_flatMap {parts : List (List α)} (hFront : sep ∉ front) (hParts : ∀ part ∈ parts, sep ∉ part) :
    splitOn sep (front ++ parts.flatMap (sep :: ·)) = front :: parts := by
  induction parts generalizing front with
  | nil =>
    rw [List.flatMap_nil, List.append_nil, splitOn_of_not_mem hFront]
  | cons part parts ih =>
    have hCut : cutFirst sep (front ++ (part :: parts).flatMap (sep :: ·)) =
        some (front, part ++ parts.flatMap (sep :: ·)) := cutFirst_eq_some_iff.mpr ⟨by simp, hFront⟩
    rw [splitOn_of_cutFirst hCut, ih (hParts part (by simp)) fun p hp => hParts p (by simp [hp])]

end Cuts

/-! ## Lines -/

/-- The byte that may stand before a line feed and then belongs to the end of the line. -/
def carriageReturn : UInt8 := 0x0D

/-- A line is shorter than the bytes before its line feed by one byte at most. -/
theorem length_le_stripReturn (raw : Bytes) : raw.length ≤ (stripReturn raw).length + 1 := by
  unfold stripReturn
  split
  · simp only [List.length_dropLast]
    omega
  · omega

@[simp]
theorem stripReturn_concat (line : Bytes) : stripReturn (line ++ [carriageReturn]) = line := by
  simp [stripReturn, carriageReturn]

/-- At most one carriage return is taken off the end, and it is taken off whenever there is one. -/
theorem stripReturn_eq_iff {raw line : Bytes} :
    stripReturn raw = line ↔
      raw = line ++ [carriageReturn] ∨ raw = line ∧ raw.getLast? ≠ some carriageReturn := by
  by_cases hLast : raw.getLast? = some carriageReturn
  · obtain ⟨front, rfl⟩ := List.getLast?_eq_some_iff.mp hLast
    simp [eq_comm]
  · have hKept : stripReturn raw = raw := by
      unfold stripReturn
      rw [if_neg]
      simpa [carriageReturn] using hLast
    rw [hKept]
    constructor
    · intro h
      exact .inr ⟨h, hLast⟩
    · rintro (rfl | ⟨h, -⟩)
      · simp at hLast
      · exact h

/-- The first line of a byte string, and the lines behind it. -/
theorem linesOf_line {raw rest : Bytes} (h : lineFeed ∉ raw) :
    linesOf (raw ++ lineFeed :: rest) = stripReturn raw :: linesOf rest := by
  have hCut : cutFirst lineFeed (raw ++ lineFeed :: rest) = some (raw, rest) :=
    cutFirst_eq_some_iff.mpr ⟨rfl, h⟩
  simp [linesOf, splitOn_of_cutFirst hCut]

/-- Raw lines, each with a line feed behind it. -/
def unlines (raws : List Bytes) : Bytes :=
  raws.flatMap (· ++ [lineFeed])

@[simp]
theorem unlines_nil : unlines [] = [] :=
  rfl

@[simp]
theorem unlines_cons (raw : Bytes) (raws : List Bytes) : unlines (raw :: raws) = raw ++ lineFeed :: unlines raws := by
  simp [unlines]

@[simp]
theorem unlines_append (front back : List Bytes) : unlines (front ++ back) = unlines front ++ unlines back :=
  List.flatMap_append

/-- The lines that were written one behind the other are read back, and so is what follows them. -/
theorem linesOf_unlines {raws : List Bytes} {rest : Bytes} (h : ∀ raw ∈ raws, lineFeed ∉ raw) :
    linesOf (unlines raws ++ rest) = raws.map stripReturn ++ linesOf rest := by
  induction raws with
  | nil => rfl
  | cons raw raws ih =>
    have hRaw : lineFeed ∉ raw := h raw (by simp)
    have hRaws : ∀ r ∈ raws, lineFeed ∉ r := fun r hr => h r (by simp [hr])
    simp only [unlines_cons, List.append_assoc, List.cons_append, List.map_cons]
    rw [linesOf_line hRaw, ih hRaws]

/-- Lines up to the first empty one. -/
theorem takeWhile_append_nil_cons {lines more : List Bytes} (h : [] ∉ lines) :
    (lines ++ [] :: more).takeWhile (!·.isEmpty) = lines := by
  have hSome : ∀ line ∈ lines, (!line.isEmpty) = true := by
    intro line hLine
    rw [Bool.not_eq_true', List.isEmpty_eq_false_iff]
    rintro rfl
    exact h hLine
  rw [List.takeWhile_append_of_pos hSome]
  simp

end HttpServer
