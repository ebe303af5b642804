import HttpServer.Text.Unprintable

/-!
# Quotations — a text shown between double quotes

Messages that name a rejected header or cookie show it as a quotation, so that blanks and control
characters can be seen.  The double quote and the backslash are escaped by a backslash, the common control
characters by their letter, every other unprintable character by its code point in braces.  An apostrophe
stands for itself.
-/

namespace HttpServer.Quoted

/-- How one character is shown inside a quotation. -/
def escape (c : Char) : List Char :=
  match c with
  | '\x00' => ['\\', '0']
  | '\t' => ['\\', 't']
  | '\r' => ['\\', 'r']
  | '\n' => ['\\', 'n']
  | '"' => ['\\', '"']
  | '\\' => ['\\', '\\']
  | c =>
    if isUnprintable c then
      ['\\', 'u', '\x7b'] ++ Nat.toDigits 16 c.toNat ++ ['\x7d']
    else [c]

/-- The text between double quotes. -/
def quote (s : String) : String :=
  String.ofList ('"' :: s.toList.flatMap escape ++ ['"'])

end HttpServer.Quoted
