import Highlight.Unicode.Printable

/-!
# Quoted text

Text between quotation marks, on one line and readable: a quotation mark, a backslash and the
common control characters follow a backslash, and a character that would not show is given by its
code point.
-/

namespace Highlight.Text

/-- How one character is written inside quotation marks. -/
def spell (c : Char) : List Char :=
  match c with
  | '\x00' => ['\\', '0']
  | '\t' => ['\\', 't']
  | '\r' => ['\\', 'r']
  | '\n' => ['\\', 'n']
  | '\\' => ['\\', '\\']
  | '"' => ['\\', '"']
  | c =>
    if Unicode.isPrintable c then [c]
    else ['\\', 'u', '\x7B'] ++ Nat.toDigits 16 c.toNat ++ ['\x7D']

/-- A text in quotation marks. -/
def quote (s : String) : String := .ofList ('"' :: s.toList.flatMap spell ++ ['"'])

/-- An optional text, spelled with its quotation marks. -/
def quoteOption : Option String → String
  | some s => "Some(" ++ quote s ++ ")"
  | none => "None"

end Highlight.Text
