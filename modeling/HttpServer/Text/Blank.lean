/-!
# Blanks — the characters that trimming removes

A blank is a character with the Unicode property `White_Space`.  Header values, tokens of a list and
cookie pairs are trimmed with this set, not with the ASCII one.
-/

namespace HttpServer

/-- The Unicode property `White_Space`. -/
def isBlank (c : Char) : Bool :=
  let n := c.toNat
  (0x09 ≤ n && n ≤ 0x0D) || n == 0x20 || n == 0x85 || n == 0xA0 || n == 0x1680 ||
    (0x2000 ≤ n && n ≤ 0x200A) || n == 0x2028 || n == 0x2029 || n == 0x202F || n == 0x205F || n == 0x3000

/-- A text without the blanks at its two ends. -/
def trim (cs : List Char) : List Char :=
  ((cs.dropWhile isBlank).reverse.dropWhile isBlank).reverse

/-- Trimming only leaves characters out. -/
theorem mem_of_mem_trim {c : Char} {cs : List Char} (h : c ∈ trim cs) : c ∈ cs := by
  have hReverse := (List.dropWhile_suffix isBlank).subset (List.mem_reverse.mp h)
  exact (List.dropWhile_suffix isBlank).subset (List.mem_reverse.mp hReverse)

/-- A string without the blanks at its two ends. -/
def trimText (s : String) : String :=
  String.ofList (trim s.toList)

end HttpServer
