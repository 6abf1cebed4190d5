import Highlight.Text.Digits

/-!
# JSON values

A number is kept as it is written, and an object as the list of its members in order, so that
reading forgets nothing that a later check may ask for.
-/

namespace Highlight

/-- A JSON value. -/
inductive Json where
  | null
  | bool (value : Bool)
  /-- A number as it is written. -/
  | number (literal : List Char)
  | string (text : String)
  /-- A string whose escapes name one half of a pair of surrogates without the other, so that it
  denotes no text. -/
  | brokenString
  | array (items : List Json)
  /-- Keys and values; a key that denotes no text is missing. -/
  | object (members : List (Option String × Json))

namespace Json

/-- A natural number. -/
def nat (n : Nat) : Json := .number (Nat.toDigits 10 n)

/-- An object whose keys are all texts. -/
def ofMembers (members : List (String × Json)) : Json :=
  .object (members.map fun (key, value) => (some key, value))

/-- The value of a number that is written as decimal digits alone and fits into 64 bits. -/
def natural? : Json → Option Nat
  | number literal => (Text.natural? literal).filter (· < UInt64.size)
  | _ => none

/-- The text of a string. -/
def text? : Json → Option String
  | string text => some text
  | _ => none

/-- The value of a truth value. -/
def bool? : Json → Option Bool
  | bool value => some value
  | _ => none

/-- The items of an array. -/
def items? : Json → Option (List Json)
  | array items => some items
  | _ => none

end Json

end Highlight
