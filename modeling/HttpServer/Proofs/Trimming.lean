import HttpServer.Headers.Name
import HttpServer.Text.Blank
import Mathlib

/-!
# Trimming, and what it leaves alone

Trimming from either side ends at the first character that is no blank (`trim_append_cons`), so a text between blanks
is found again if it has none at its ends (`trim_between`).  A token has none at all (`trim_of_isToken`).
-/

namespace HttpServer

variable {c : Char} {cs ds : List Char}

/-! ## Blanks at the ends -/

theorem dropWhile_append_cons {p : Char → Bool} (hc : p c = false) :
    (cs ++ c :: ds).dropWhile p = cs.dropWhile p ++ c :: ds := by
  rw [List.dropWhile_append, List.dropWhile_cons, hc]
  split
  · rename_i hNone
    rw [List.isEmpty_iff.mp hNone]
    rfl
  · rfl

/-- Trimming from either side ends at a character that is no blank. -/
theorem trim_append_cons (hc : isBlank c = false) :
    trim (cs ++ c :: ds) = cs.dropWhile isBlank ++ c :: ds.rdropWhile isBlank := by
  have hReverse : (cs.dropWhile isBlank ++ c :: ds).reverse = ds.reverse ++ c :: (cs.dropWhile isBlank).reverse := by
    simp
  rw [trim, dropWhile_append_cons hc, hReverse, dropWhile_append_cons hc]
  simp [List.rdropWhile]

/-- Blanks around a text make no difference. -/
theorem trim_between {front back : List Char} (hFront : front.all isBlank = true) (hBack : back.all isBlank = true) :
    trim (front ++ cs ++ back) = trim cs := by
  rw [List.all_eq_true] at hFront hBack
  have hBackwards : ∀ c ∈ back.reverse, isBlank c = true := by simpa using hBack
  rw [trim, List.append_assoc, List.dropWhile_append_of_pos hFront, List.dropWhile_append]
  split
  · rename_i hNone
    rw [List.dropWhile_eq_nil_iff.mpr hBack, trim, List.isEmpty_iff.mp hNone]
  · rw [List.reverse_append, List.dropWhile_append_of_pos hBackwards, trim]

/-- A text is left alone exactly if it has no blank at either end. -/
theorem trim_eq_self_iff : trim cs = cs ↔ cs.dropWhile isBlank = cs ∧ cs.rdropWhile isBlank = cs := by
  have hTwice : trim cs = (cs.dropWhile isBlank).rdropWhile isBlank := rfl
  constructor
  · intro h
    have hFront : cs.dropWhile isBlank = cs := by
      have hEnd := (List.rdropWhile_prefix isBlank (cs.dropWhile isBlank)).length_le
      rw [← hTwice, h] at hEnd
      exact (List.dropWhile_suffix isBlank).eq_of_length_le hEnd
    exact ⟨hFront, by rwa [hTwice, hFront] at h⟩
  · rintro ⟨hFront, hEnd⟩
    rw [hTwice, hFront, hEnd]

/-- Two texts that are left alone, with something between them that is no blank, are left alone together. -/
theorem trim_append_cons_eq_self (hc : isBlank c = false) (hcs : trim cs = cs) (hds : trim ds = ds) :
    trim (cs ++ c :: ds) = cs ++ c :: ds := by
  rw [trim_append_cons hc, (trim_eq_self_iff.mp hcs).1, (trim_eq_self_iff.mp hds).2]

theorem trim_space (cs : List Char) : trim (' ' :: cs) = trim cs := by
  have hBlank : [' '].all isBlank = true := by decide
  simpa using @trim_between cs [' '] [] hBlank rfl

theorem trim_of_not_blank (h : ∀ c ∈ cs, isBlank c = false) : trim cs = cs := by
  have hDrop : ∀ ds : List Char, (∀ c ∈ ds, isBlank c = false) → ds.dropWhile isBlank = ds := by
    intro ds hds
    cases ds with
    | nil => rfl
    | cons d ds => simp [hds d (by simp)]
  rw [trim, hDrop cs h, hDrop cs.reverse (by simpa using h), List.reverse_reverse]

/-! ## Tokens -/

theorem isTokenChar_of_mem {name : String} (hToken : isToken name = true) (hc : c ∈ name.toList) :
    isTokenChar c = true := by
  simp only [isToken, Bool.and_eq_true, List.all_eq_true] at hToken
  exact hToken.2 c hc

/-- Where the codes of letters and digits lie. -/
theorem bounds_of_isAlphanum (h : c.isAlphanum = true) : 48 ≤ c.toNat ∧ c.toNat ≤ 122 := by
  simp only [Char.isAlphanum, Char.isAlpha, Char.isUpper, Char.isLower, Char.isDigit, Bool.or_eq_true,
    Bool.and_eq_true, decide_eq_true_eq, UInt32.le_iff_toNat_le] at h
  have hUpper : 'A'.val.toNat = 65 ∧ 'Z'.val.toNat = 90 := ⟨rfl, rfl⟩
  have hLower : 'a'.val.toNat = 97 ∧ 'z'.val.toNat = 122 := ⟨rfl, rfl⟩
  have hDigit : '0'.val.toNat = 48 ∧ '9'.val.toNat = 57 := ⟨rfl, rfl⟩
  have hCode : c.toNat = c.val.toNat := rfl
  omega

/-- A token has no blank in it. -/
theorem isBlank_of_isTokenChar (h : isTokenChar c = true) : isBlank c = false := by
  have hMarks : "!#$%&'*+-.^_\x60|~".toList.all (fun c => !isBlank c) = true := by decide
  simp only [isTokenChar, Bool.or_eq_true, List.contains_iff_mem] at h
  rcases h with hAlphanum | hMark
  · have hBounds := bounds_of_isAlphanum hAlphanum
    rw [Bool.eq_false_iff]
    simp only [isBlank, ne_eq, Bool.or_eq_true, Bool.and_eq_true, decide_eq_true_eq, beq_iff_eq]
    omega
  · simpa using List.all_eq_true.mp hMarks c hMark

theorem trim_of_isToken {name : String} (h : isToken name = true) : trim name.toList = name.toList :=
  trim_of_not_blank fun _ hc => isBlank_of_isTokenChar (isTokenChar_of_mem h hc)

end HttpServer
