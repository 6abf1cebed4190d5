import Highlight.Json.Basic

/-!
# Writing JSON

Two layouts: everything on one line without blanks, and one item to a line, indented by two spaces
for each level. Quotation marks, backslashes and control characters are escaped, and nothing else.

* `Json.compact`: the short layout;
* `Json.pretty`: the layout with lines.
-/

namespace Highlight.Json

/-- A lower-case hexadecimal digit. -/
def hexDigit (n : Nat) : Char := if n < 10 then .ofNat ('0'.toNat + n) else .ofNat ('a'.toNat + n - 10)

/-- How one character is written inside a string. -/
def escape (c : Char) : List Char :=
  match c with
  | '"' => ['\\', '"']
  | '\\' => ['\\', '\\']
  | '\x08' => ['\\', 'b']
  | '\x0C' => ['\\', 'f']
  | '\n' => ['\\', 'n']
  | '\r' => ['\\', 'r']
  | '\t' => ['\\', 't']
  | c =>
    if c.toNat < 0x20 then
      ['\\', 'u', '0', '0', hexDigit (c.toNat / 16), hexDigit (c.toNat % 16)]
    else [c]

/-- A text as a JSON string. -/
def quoted (text : String) : List Char := '"' :: text.toList.flatMap escape ++ ['"']

/-- A key as a JSON string. -/
def quotedKey (key : Option String) : List Char := quoted (key.getD "")

mutual

/-- A value on one line, without blanks. -/
def compact : Json → List Char
  | null => "null".toList
  | bool value => (toString value).toList
  | number literal => literal
  | string text => quoted text
  | brokenString => quoted ""
  | array items => '[' :: compactItems items ++ [']']
  | object members => '\x7B' :: compactMembers members ++ ['\x7D']

/-- The items of an array, with commas between them. -/
def compactItems : List Json → List Char
  | [] => []
  | [item] => item.compact
  | item :: items => item.compact ++ ',' :: compactItems items

/-- The members of an object, with commas between them. -/
def compactMembers : List (Option String × Json) → List Char
  | [] => []
  | [(key, value)] => quotedKey key ++ ':' :: value.compact
  | (key, value) :: members => quotedKey key ++ ':' :: value.compact ++ ',' :: compactMembers members

end

/-- The beginning of a line at some depth. -/
def newLine (depth : Nat) : List Char := '\n' :: List.replicate (2 * depth) ' '

mutual

/-- A value with one item to a line, at some depth. -/
def prettyAt (depth : Nat) : Json → List Char
  | array [] => ['[', ']']
  | array items => '[' :: prettyItems (depth + 1) items ++ newLine depth ++ [']']
  | object [] => ['\x7B', '\x7D']
  | object members => '\x7B' :: prettyMembers (depth + 1) members ++ newLine depth ++ ['\x7D']
  | null => "null".toList
  | bool value => (toString value).toList
  | number literal => literal
  | string text => quoted text
  | brokenString => quoted ""

/-- The items of an array, each on a line of its own. -/
def prettyItems (depth : Nat) : List Json → List Char
  | [] => []
  | [item] => newLine depth ++ item.prettyAt depth
  | item :: items => newLine depth ++ item.prettyAt depth ++ ',' :: prettyItems depth items

/-- The members of an object, each on a line of its own. -/
def prettyMembers (depth : Nat) : List (Option String × Json) → List Char
  | [] => []
  | [(key, value)] => newLine depth ++ quotedKey key ++ ':' :: ' ' :: value.prettyAt depth
  | (key, value) :: members =>
    newLine depth ++ quotedKey key ++ ':' :: ' ' :: value.prettyAt depth ++
      ',' :: prettyMembers depth members

end

/-- A value with one item to a line. -/
def pretty (value : Json) : List Char := value.prettyAt 0

end Highlight.Json
