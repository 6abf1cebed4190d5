import Highlight.Json.Basic

/-!
# Reading JSON

Readers take a text from some point on and return what they read and the text after it, or nothing
if the text is wrong. Between the parts there may be spaces, tabs and ends of lines.

* `readString`: a string after its opening quotation mark;
* `readNumber`: a number, as it is written;
* `Json.readPrefix?`: the value that a text begins with.
-/

namespace Highlight.Json

/-- Whether a character may stand between the parts of a value. -/
def isBlank (c : Char) : Bool := c == ' ' || c == '\n' || c == '\t' || c == '\r'

/-- The text after blanks. -/
def skipBlanks (text : List Char) : List Char := text.dropWhile isBlank

/-! ## Strings -/

/-- What four hexadecimal digits denote. -/
def unit? (a b c d : Char) : Option Nat := do
  let a ← Text.hexValue? a
  let b ← Text.hexValue? b
  let c ← Text.hexValue? c
  let d ← Text.hexValue? d
  return ((a * 16 + b) * 16 + c) * 16 + d

/-- What the letter after a backslash denotes, the letter `u` aside. -/
def unescape? : Char → Option Char
  | '"' => some '"'
  | '\\' => some '\\'
  | '/' => some '/'
  | 'b' => some '\x08'
  | 'f' => some '\x0C'
  | 'n' => some '\n'
  | 'r' => some '\r'
  | 't' => some '\t'
  | _ => none

/-- The numbers of the characters of a string up to its closing quotation mark, halves of pairs of
surrogates included, and the text after it. -/
def readUnits : List Char → Option (List Nat × List Char)
  | [] => none
  | '"' :: rest => some ([], rest)
  | '\\' :: 'u' :: a :: b :: c :: d :: rest => do
    let unit ← unit? a b c d
    let (units, rest) ← readUnits rest
    return (unit :: units, rest)
  | '\\' :: c :: rest => do
    let c ← unescape? c
    let (units, rest) ← readUnits rest
    return (c.toNat :: units, rest)
  | c :: rest =>
    if c.toNat < 0x20 || c = '\\' then none
    else do
      let (units, rest) ← readUnits rest
      return (c.toNat :: units, rest)

/-- Joins pairs of surrogates; a half without the other denotes no text. -/
def joinUnits : List Nat → Option (List Char)
  | [] => some []
  | [unit] => if 0xD800 ≤ unit ∧ unit < 0xE000 then none else some [.ofNat unit]
  | unit :: next :: units =>
    if 0xD800 ≤ unit ∧ unit < 0xDC00 then
      if 0xDC00 ≤ next ∧ next < 0xE000 then
        (joinUnits units).map
          (Char.ofNat (0x10000 + (unit - 0xD800) * 0x400 + (next - 0xDC00)) :: ·)
      else none
    else if 0xDC00 ≤ unit ∧ unit < 0xE000 then none
    else (joinUnits (next :: units)).map (Char.ofNat unit :: ·)

/-- A string after its opening quotation mark; the text it denotes is missing if there is none. -/
def readString (text : List Char) : Option (Option String × List Char) := do
  let (units, rest) ← readUnits text
  return ((joinUnits units).map .ofList, rest)

/-! ## Numbers -/

/-- One or more decimal digits. -/
def readDigits (text : List Char) : Option (List Char × List Char) :=
  match text.takeWhile Char.isDigit with
  | [] => none
  | digits => some (digits, text.dropWhile Char.isDigit)

/-- The whole part of a number, without a zero before other digits. -/
def readWhole : List Char → Option (List Char × List Char)
  | '0' :: rest => some (['0'], rest)
  | text => readDigits text

/-- The decimals of a number, if there are any. -/
def readFraction : List Char → Option (List Char × List Char)
  | '.' :: rest => do
    let (digits, rest) ← readDigits rest
    return ('.' :: digits, rest)
  | text => some ([], text)

/-- The exponent of a number, if there is one. -/
def readExponent : List Char → Option (List Char × List Char)
  | c :: rest =>
    if c = 'e' ∨ c = 'E' then do
      let (sign, rest) := match rest with
        | '+' :: rest => (['+'], rest)
        | '-' :: rest => (['-'], rest)
        | rest => ([], rest)
      let (digits, rest) ← readDigits rest
      return (c :: sign ++ digits, rest)
    else some ([], c :: rest)
  | [] => some ([], [])

/-- A number, as it is written. -/
def readNumber (text : List Char) : Option (List Char × List Char) := do
  let (sign, rest) := match text with
    | '-' :: rest => (['-'], rest)
    | text => ([], text)
  let (whole, rest) ← readWhole rest
  let (fraction, rest) ← readFraction rest
  let (exponent, rest) ← readExponent rest
  return (sign ++ whole ++ fraction ++ exponent, rest)

/-! ## Values -/

/-- The text after a word, if the text begins with it. -/
def dropWord (word text : List Char) : Option (List Char) :=
  if word.isPrefixOf text then some (text.drop word.length) else none

mutual

/-- A value that begins at once. Of two calls in a row at least one reads a character, so `limit`
need not exceed twice the length of the text. -/
def readValue : Nat → List Char → Option (Json × List Char)
  | 0, _ => none
  | limit + 1, text =>
    match text with
    | '"' :: rest => do
      let (text, rest) ← readString rest
      return (match text with
        | some text => .string text
        | none => .brokenString, rest)
    | '[' :: rest =>
      match skipBlanks rest with
      | ']' :: rest => some (.array [], rest)
      | rest => do
        let (items, rest) ← readItems limit rest
        return (.array items, rest)
    | '\x7B' :: rest =>
      match skipBlanks rest with
      | '\x7D' :: rest => some (.object [], rest)
      | rest => do
        let (members, rest) ← readMembers limit rest
        return (.object members, rest)
    | 't' :: _ => do return (.bool true, ← dropWord "true".toList text)
    | 'f' :: _ => do return (.bool false, ← dropWord "false".toList text)
    | 'n' :: _ => do return (.null, ← dropWord "null".toList text)
    | text => do
      let (literal, rest) ← readNumber text
      return (.number literal, rest)

/-- One or more items of an array, up to its closing bracket. -/
def readItems : Nat → List Char → Option (List Json × List Char)
  | 0, _ => none
  | limit + 1, text => do
    let (item, rest) ← readValue limit (skipBlanks text)
    match skipBlanks rest with
    | ']' :: rest => return ([item], rest)
    | ',' :: rest =>
      let (items, rest) ← readItems limit rest
      return (item :: items, rest)
    | _ => none

/-- One or more members of an object, up to its closing brace. -/
def readMembers : Nat → List Char → Option (List (Option String × Json) × List Char)
  | 0, _ => none
  | limit + 1, text =>
    match skipBlanks text with
    | '"' :: rest => do
      let (key, rest) ← readString rest
      match skipBlanks rest with
      | ':' :: rest =>
        let (value, rest) ← readValue limit (skipBlanks rest)
        match skipBlanks rest with
        | '\x7D' :: rest => return ([(key, value)], rest)
        | ',' :: rest =>
          let (members, rest) ← readMembers limit rest
          return ((key, value) :: members, rest)
        | _ => none
      | _ => none
    | _ => none

end

/-- The value that a text begins with, and the text after it. -/
def readPrefix? (text : List Char) : Option (Json × List Char) :=
  readValue (2 * text.length + 1) (skipBlanks text)

/-- Whether nothing but blanks is left. -/
def isEnd (text : List Char) : Bool := text.all isBlank

end Highlight.Json
