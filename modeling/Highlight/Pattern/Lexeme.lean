import Highlight.Pattern.Basic
import Highlight.Text.Digits
import Highlight.Unicode.Alphabetic

/-!
# The small parts of a pattern's text

Blanks and comments, escapes, hexadecimal character numbers, properties, counts, group names and
flags. Each reader takes the text from some point on and returns what it read and the text after it,
or why the text is no pattern. Under the verbose flag, blanks and comments may stand between the
parts.

Which characters have a property, such as those of a script, is not known here. What is read depends
on a table that tells it (`Properties`).
-/

namespace Highlight.Pattern

/-- Why a text is no pattern. -/
inductive SyntaxError where
  | groupUnclosed
  | groupUnopened
  | groupNameInvalid
  | groupNameRepeated (name : String)
  | flagsInvalid
  | lookAround
  | nothingToRepeat
  | countUnclosed
  | countInvalid
  | classUnclosed
  | classRangeInvalid
  | classEscapeInvalid
  | escapeUnfinished
  | escapeUnknown (c : Char)
  | backReference
  | characterNumberInvalid
  | propertyInvalid
  | propertyUnknown (name : String)
  /-- A property is asked for where sets are of bytes. -/
  | propertyNotAllowed
  /-- A byte that is no ASCII character would be read by itself. -/
  | notUtf8
  | tooDeep
  | tooLarge
deriving DecidableEq, Repr

/-- How a part of a pattern is to be read. -/
structure Flags where
  /-- Letters stand for both cases. -/
  caseless : Bool := false
  /-- `^` and `$` hold at the ends of lines too. -/
  multiline : Bool := false
  /-- The dot accepts the end of a line too. -/
  dotAll : Bool := false
  /-- Repetitions prefer fewer rounds, and more when marked. -/
  swapGreed : Bool := false
  /-- Blanks and comments are left out. -/
  verbose : Bool := false
  /-- Lines may end in a carriage return too. -/
  crlf : Bool := false
  /-- Sets are of characters. Otherwise they are of bytes, and only ASCII characters are digits, blanks
  or parts of words, or have another case. -/
  unicode : Bool := true
deriving DecidableEq, Repr

/-- What is known of the properties of characters: the code points that a name stands for between
`\p{` and `}`, such as `Greek` or `sc=Greek`. -/
abbrev Properties := String → Option (List Unicode.CodeRange)

/-- No property is known. -/
def Properties.none : Properties := fun _ => Option.none

/-- Drops white space and comments from the front, starting inside a comment or not. A comment
begins with a number sign and ends with the line. -/
def dropBlanks (inComment : Bool) : List Char → List Char
  | [] => []
  | c :: cs =>
    if inComment then dropBlanks (c != '\n') cs
    else if Unicode.isSpace c then dropBlanks false cs
    else if c = '#' then dropBlanks true cs
    else c :: cs

/-- The text after the blanks that the flags allow here. -/
def Flags.skip (flags : Flags) (text : List Char) : List Char :=
  if flags.verbose then dropBlanks false text else text

/-- The characters at the front that `p` holds for, in reverse and after those `taken` before, and
the text after them. Blanks may stand between them where the flags allow that; `inComment` tells
whether the text begins inside a comment. -/
def takeChars (flags : Flags) (p : Char → Bool) (inComment : Bool) (taken : List Char) :
    List Char → List Char × List Char
  | [] => (taken, [])
  | c :: rest =>
    if inComment then takeChars flags p (c != '\n') taken rest
    else if p c then takeChars flags p false (c :: taken) rest
    else if flags.verbose && Unicode.isSpace c then takeChars flags p false taken rest
    else if flags.verbose && c == '#' then takeChars flags p true taken rest
    else (taken, c :: rest)

/-! ## Sets under flags -/

namespace Flags

/-- A set under the flags: without regard to case if they say so. -/
def set (flags : Flags) (s : CharSet) : CharSet :=
  if !flags.caseless then s else if flags.unicode then s.caseless else s.asciiCaseless

/-- A set, or all other characters. Case is disregarded before the complement is taken. -/
def setOrRest (flags : Flags) (negated : Bool) (s : CharSet) : CharSet :=
  if negated then (flags.set s).compl else flags.set s

/-- A set as one of characters or of bytes. -/
def mark (flags : Flags) (s : CharSet) : CharSet := if flags.unicode then s else s.ofBytes

/-- A set that can be read: as bytes only ASCII characters can. -/
def accept (flags : Flags) (s : CharSet) : Except SyntaxError CharSet :=
  if flags.unicode || s.isAscii then .ok (flags.mark s) else .error .notUtf8

/-- The set of an escape, or all that is not in it: `wide` where sets are of characters, and `narrow`
where they are of bytes. Case makes no difference to it. -/
def escapeSet (flags : Flags) (negated : Bool) (wide narrow : CharSet) : Except SyntaxError CharSet :=
  let s := if flags.unicode then wide else narrow
  flags.accept (if negated then s.compl else s)

end Flags

/-! ## Escapes -/

/-- A part of a pattern that stands for itself. -/
inductive Atom where
  | char (c : Char)
  | set (s : CharSet)
  | check (condition : Condition)

/-- The characters with a meaning of their own, which a backslash takes away. -/
def isMeta (c : Char) : Bool := "\\.+*?()|[]\x7B\x7D^$#&-~".toList.contains c

/-- Whether a backslash before `c` just means `c`. -/
def isPlainEscape (c : Char) : Bool :=
  isMeta c || (c.toNat < 128 && !c.isAlphanum && c != '<' && c != '>')

/-- The character with a number, if there is one. -/
def charOfNumber (n : Nat) : Except SyntaxError Char :=
  if n.isValidChar then .ok (.ofNat n) else .error .characterNumberInvalid

/-- A character number of exactly `count` digits. -/
def readDigits (flags : Flags) (count value : Nat) (text : List Char) :
    Except SyntaxError (Char × List Char) :=
  match count, text with
  | 0, rest => return (← charOfNumber value, rest)
  | _, [] => .error .escapeUnfinished
  | n + 1, c :: rest =>
    match Text.hexValue? c with
    | some v => readDigits flags n (value * 16 + v) (flags.skip rest)
    | none => .error .characterNumberInvalid

/-- A character number up to a closing brace. -/
def readBraced (flags : Flags) (text : List Char) : Except SyntaxError (Char × List Char) :=
  let (digits, rest) := takeChars flags (fun c => (Text.hexValue? c).isSome) false [] text
  match rest with
  | [] => .error .escapeUnfinished
  | '\x7D' :: rest => do
    if digits.isEmpty then .error .characterNumberInvalid
    let value := digits.reverse.foldl (fun n c => n * 16 + (Text.hexValue? c).getD 0) 0
    return (← charOfNumber value, flags.skip rest)
  | _ => .error .characterNumberInvalid

/-- A character number after its introducing letter, which asks for `count` digits without
braces. -/
def readCharNumber (flags : Flags) (count : Nat) (text : List Char) :
    Except SyntaxError (Char × List Char) :=
  match flags.skip text with
  | [] => .error .escapeUnfinished
  | '\x7B' :: rest => readBraced flags rest
  | rest => do
    let (c, rest) ← readDigits flags count 0 rest
    -- Two digits without braces give a byte where sets are of bytes.
    if count = 2 ∧ !flags.unicode ∧ 0x80 ≤ c.toNat then .error .notUtf8
    return (c, rest)

/-- The special word boundary named between the braces after `\b`, or none if they hold a count,
which belongs to a repetition. -/
def readBoundaryName (flags : Flags) (text : List Char) :
    Except SyntaxError (Option (Condition × List Char)) :=
  match takeChars flags (fun c => c.isAlpha || c == '-') false [] text with
  | (_, []) => .error .escapeUnfinished
  | ([], _) => .ok none
  | (name, '\x7D' :: rest) =>
    match String.ofList name.reverse with
    | "start" => .ok (some (.wordStart flags.unicode, rest))
    | "end" => .ok (some (.wordEnd flags.unicode, rest))
    | "start-half" => .ok (some (.wordStartHalf flags.unicode, rest))
    | "end-half" => .ok (some (.wordEndHalf flags.unicode, rest))
    | _ => .error (.escapeUnknown 'b')
  | _ => .error (.escapeUnknown 'b')

section Properties

variable (properties : Properties)

/-- The characters with a property, or all others. -/
def propertySet (flags : Flags) (negated : Bool) (name : String) : Except SyntaxError CharSet :=
  if !flags.unicode then .error .propertyNotAllowed
  else
    match properties name with
    | some ranges => .ok (flags.setOrRest negated (.ofRanges ranges))
    | none => .error (.propertyUnknown name)

/-- A property after `\p`, or after `\P` if negated: a single letter, or a name in braces. -/
def readProperty (flags : Flags) (negated : Bool) (text : List Char) :
    Except SyntaxError (CharSet × List Char) :=
  match flags.skip text with
  | [] => .error .escapeUnfinished
  | '\x7B' :: rest =>
    let inName (c : Char) : Bool := c != '\x7D' && !(flags.verbose && (Unicode.isSpace c || c == '#'))
    match takeChars flags inName false [] rest with
    | (_, []) => .error .escapeUnfinished
    | (name, _ :: rest) => do return (← propertySet properties flags negated (.ofList name.reverse), rest)
  | '\\' :: _ => .error .propertyInvalid
  | c :: rest => do return (← propertySet properties flags negated (.singleton c), rest)

/-- What a backslash and the text after it stand for. -/
def readEscape (flags : Flags) : List Char → Except SyntaxError (Atom × List Char)
  | [] => .error .escapeUnfinished
  | c :: rest =>
    let char (c : Char) := Except.ok (Atom.char c, rest)
    let set (negated : Bool) (wide narrow : CharSet) := do
      return (Atom.set (← flags.escapeSet negated wide narrow), rest)
    let property (negated : Bool) := do
      let (s, rest) ← readProperty properties flags negated rest
      return (Atom.set s, rest)
    let check (condition : Condition) := Except.ok (Atom.check condition, rest)
    let number (count : Nat) := do
      let (c, rest) ← readCharNumber flags count rest
      return (Atom.char c, rest)
    match c with
    | 'x' => number 2
    | 'u' => number 4
    | 'U' => number 8
    | 'p' => property false
    | 'P' => property true
    | 'd' => set false .digit .asciiDigit
    | 'D' => set true .digit .asciiDigit
    | 's' => set false .space .asciiSpace
    | 'S' => set true .space .asciiSpace
    | 'w' => set false .wordChar .asciiWordChar
    | 'W' => set true .wordChar .asciiWordChar
    | 'a' => char '\x07'
    | 'f' => char '\x0C'
    | 't' => char '\t'
    | 'n' => char '\n'
    | 'r' => char '\r'
    | 'v' => char '\x0B'
    | 'A' => check .textStart
    | 'z' => check .textEnd
    | 'B' => check (.notWordBoundary flags.unicode)
    | '<' => check (.wordStart flags.unicode)
    | '>' => check (.wordEnd flags.unicode)
    | 'b' =>
      match rest with
      | '\x7B' :: inner => do
        match ← readBoundaryName flags inner with
        | some (condition, rest) => return (.check condition, rest)
        | none => check (.wordBoundary flags.unicode)
      | _ => check (.wordBoundary flags.unicode)
    | c =>
      if c.isDigit then .error .backReference
      else if isPlainEscape c then char c
      else .error (.escapeUnknown c)

end Properties

/-! ## Counts -/

/-- A decimal number below 2³², or none where there are no digits. White space may surround it. -/
def readNumber (flags : Flags) (text : List Char) :
    Except SyntaxError (Option Nat × List Char) :=
  let (digits, rest) := takeChars flags Char.isDigit false [] (text.dropWhile Unicode.isSpace)
  let rest := flags.skip (rest.dropWhile Unicode.isSpace)
  match Text.natural? digits.reverse with
  | none => .ok (none, rest)
  | some n => if n < UInt32.size then .ok (some n, rest) else .error .countInvalid

/-- What follows the first number between the braces of a repetition: a comma and perhaps a second
number, or nothing. -/
def readMost (flags : Flags) (least : Option Nat) :
    List Char → Except SyntaxError ((Option Nat × Option Nat) × List Char)
  | [] => .error .countUnclosed
  | ',' :: rest =>
    match flags.skip rest with
    | [] => .error .countUnclosed
    | '\x7D' :: rest => .ok ((least, none), '\x7D' :: rest)
    | rest => do
      let (most, rest) ← readNumber flags rest
      if most.isNone then .error .countInvalid
      .ok ((least, most), rest)
  | rest => .ok ((least, least), rest)

/-- The bounds, if a closing brace follows them and they are in order. -/
def closeBounds (bounds : Option Nat × Option Nat) (text : List Char) :
    Except SyntaxError ((Nat × Option Nat) × List Char) :=
  match bounds, text with
  | (some least, most), '\x7D' :: rest =>
    if most.all (least ≤ ·) then .ok ((least, most), rest) else .error .countInvalid
  | _, '\x7D' :: _ => .error .countInvalid
  | _, _ => .error .countUnclosed

/-- The bounds of a repetition, after its opening brace. -/
def readBounds (flags : Flags) (text : List Char) :
    Except SyntaxError ((Nat × Option Nat) × List Char) := do
  let text := flags.skip text
  if text.isEmpty then .error .countUnclosed
  let (least, rest) ← readNumber flags text
  let (bounds, rest) ← readMost flags least rest
  closeBounds bounds rest

/-! ## Groups -/

/-- Whether `c` may begin the name of a group. -/
def isNameStart (c : Char) : Bool := c == '_' || Unicode.isAlphabetic c

/-- Whether `c` may stand in the name of a group after its first character. -/
def isNameRest (c : Char) : Bool :=
  c == '_' || c == '.' || c == '[' || c == ']' || Unicode.isAlphabetic c || Unicode.isNumeric c

/-- The name of a group, up to its closing angle bracket. -/
def readName (text : List Char) : Except SyntaxError (String × List Char) :=
  let name := text.takeWhile (· != '>')
  match text.dropWhile (· != '>') with
  | _ :: rest =>
    match name with
    | c :: cs =>
      if isNameStart c && cs.all isNameRest then .ok (.ofList name, rest)
      else .error .groupNameInvalid
    | [] => .error .groupNameInvalid
  | [] => .error .groupNameInvalid

/-- The flags with one of them, given by its letter, switched on or off. -/
def Flags.set? (flags : Flags) (letter : Char) (value : Bool) : Option Flags :=
  match letter with
  | 'i' => some { flags with caseless := value }
  | 'm' => some { flags with multiline := value }
  | 's' => some { flags with dotAll := value }
  | 'U' => some { flags with swapGreed := value }
  | 'x' => some { flags with verbose := value }
  | 'R' => some { flags with crlf := value }
  | 'u' => some { flags with unicode := value }
  | _ => none

/-- Flag letters up to a colon or a closing parenthesis, which is returned with the flags as they
are after it. Letters behind a hyphen switch off. `seen` lists the letters read before. -/
def readFlags (flags : Flags) (seen : List Char) : List Char →
    Except SyntaxError (Flags × Char × List Char)
  | [] => .error .flagsInvalid
  | c :: rest =>
    if c = ':' ∨ c = ')' then
      if seen.head? = some '-' then .error .flagsInvalid
      else if c = ')' ∧ seen = [] then .error .nothingToRepeat
      else .ok (flags, c, rest)
    else if c ∈ seen then .error .flagsInvalid
    else if c = '-' then readFlags flags (c :: seen) rest
    else
      match flags.set? c ('-' ∉ seen) with
      | some flags => readFlags flags (c :: seen) rest
      | none => .error .flagsInvalid

end Highlight.Pattern
