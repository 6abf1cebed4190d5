import Highlight.Pattern.CharSet

/-!
# Patterns

Expressions that describe pieces of text, and positions in a text. An alternative listed earlier is
preferred to a later one, and a repetition prefers more rounds or fewer, as it says; this order
decides which of several possible matches counts.

* `Expr`: the expressions;
* `Cursor`: a position, with the character before it and the text after it;
* `Condition.holds`: the tests on a position that read nothing.
-/

namespace Highlight.Pattern

/-- A test on a position between characters. Words are of characters of any script, or else of ASCII
characters only. -/
inductive Condition where
  | textStart
  | textEnd
  | lineStart
  | lineEnd
  /-- The start of a line where a carriage return, alone or before a line feed, ends a line too. -/
  | crlfLineStart
  /-- The end of such a line. -/
  | crlfLineEnd
  | wordBoundary (unicode : Bool := true)
  | notWordBoundary (unicode : Bool := true)
  | wordStart (unicode : Bool := true)
  | wordEnd (unicode : Bool := true)
  | wordStartHalf (unicode : Bool := true)
  | wordEndHalf (unicode : Bool := true)
deriving DecidableEq, Repr

/-- A pattern expression. -/
inductive Expr where
  /-- Reads nothing. -/
  | empty
  /-- Reads the characters given. -/
  | text (cs : List Char)
  /-- Reads one character of the set. -/
  | one (set : CharSet)
  /-- Reads nothing, where the condition holds. -/
  | check (condition : Condition)
  /-- Reads what the body reads and notes where, under a number. -/
  | group (index : Nat) (body : Expr)
  /-- Reads what the first reads, then what the second reads. -/
  | seq (first second : Expr)
  /-- Reads what the first reads, or else what the second reads. -/
  | alt (first second : Expr)
  /-- Reads what the body reads at least `least` times and at most `most` times, if there is such a
  bound, preferring as many rounds as possible if `greedy` and as few otherwise. -/
  | loop (least : Nat) (most : Option Nat) (greedy : Bool) (body : Expr)
deriving DecidableEq, Repr

/-! ## Positions -/

/-- Whether a character can be part of a word, of any script or else of ASCII characters. -/
def isWord : (unicode : Bool) → Char → Bool
  | true => Unicode.isWordChar
  | false => CharSet.asciiWordChar.contains

@[simp]
theorem isWord_true : isWord true = Unicode.isWordChar := rfl

/-- A position in a text. -/
structure Cursor where
  /-- The number of characters before the position. -/
  offset : Nat
  /-- The character just before the position. -/
  before : Option Char
  /-- The text from the position on. -/
  rest : List Char
deriving DecidableEq, Repr

namespace Cursor

/-- The beginning of a text. -/
def start (text : List Char) : Cursor := ⟨0, none, text⟩

/-- The position one character on, or the same at the end of the text. -/
def next (p : Cursor) : Cursor :=
  match p.rest with
  | [] => p
  | c :: rest => ⟨p.offset + 1, some c, rest⟩

/-- Whether a word character precedes. -/
def wordBefore (p : Cursor) (unicode : Bool := true) : Bool := p.before.any (isWord unicode)

/-- Whether a word character follows. -/
def wordAfter (p : Cursor) (unicode : Bool := true) : Bool := p.rest.head?.any (isWord unicode)

/-- The text from `p` up to a later position. -/
def textTo (p stop : Cursor) : String := .ofList (p.rest.take (stop.offset - p.offset))

end Cursor

/-- Whether a condition holds at a position. -/
def Condition.holds (p : Cursor) : Condition → Bool
  | textStart => p.before.isNone
  | textEnd => p.rest.isEmpty
  | lineStart => p.before.all (· == '\n')
  | lineEnd => p.rest.head?.all (· == '\n')
  | crlfLineStart => p.before.all fun c => c == '\n' || c == '\r' && p.rest.head? != some '\n'
  | crlfLineEnd => p.rest.head?.all fun c => c == '\r' || c == '\n' && p.before != some '\r'
  | wordBoundary unicode => p.wordBefore unicode != p.wordAfter unicode
  | notWordBoundary unicode => p.wordBefore unicode == p.wordAfter unicode
  | wordStart unicode => !p.wordBefore unicode && p.wordAfter unicode
  | wordEnd unicode => p.wordBefore unicode && !p.wordAfter unicode
  | wordStartHalf unicode => !p.wordBefore unicode
  | wordEndHalf unicode => !p.wordAfter unicode

end Highlight.Pattern
