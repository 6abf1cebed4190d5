import Highlight.Spans.Marks

/-!
# The grammar of JSON

The grammar of RFC 8259, rule by rule: which texts are numbers and strings, and how values are put together
from these, from the three literal names and from punctuation, with blanks between them. It says what a
document consists of (`Grammar.Document`): the literals, each with the label of its kind, and single
characters of punctuation and blanks. No two literals touch (`Grammar.Document.loose`).
-/

namespace Highlight.Grammar

/-! ## Literals -/

/-- One digit or more. -/
def Digits (cs : List Char) : Prop := cs ≠ [] ∧ ∀ c ∈ cs, c.isDigit

/-- The whole part of a number, without needless zeros in front. -/
inductive Whole : List Char → Prop
  | zero : Whole ['0']
  | digits {c : Char} {cs : List Char} (hc : c.isDigit) (hzero : c ≠ '0') (hcs : ∀ c ∈ cs, c.isDigit) :
      Whole (c :: cs)

/-- The fraction of a number, if it has one. -/
inductive Fraction : List Char → Prop
  | none : Fraction []
  | some {ds : List Char} (hds : Digits ds) : Fraction ('.' :: ds)

/-- The exponent of a number, if it has one. -/
inductive Exponent : List Char → Prop
  | none : Exponent []
  | some {e : Char} {sign ds : List Char} (he : e = 'e' ∨ e = 'E') (hsign : sign ∈ [[], ['+'], ['-']])
      (hds : Digits ds) : Exponent (e :: (sign ++ ds))

/-- A number. -/
inductive Number : List Char → Prop
  | mk {minus whole fraction exponent : List Char} (hminus : minus ∈ [[], ['-']]) (hwhole : Whole whole)
      (hfraction : Fraction fraction) (hexponent : Exponent exponent) :
      Number (minus ++ (whole ++ (fraction ++ exponent)))

/-- A hexadecimal digit. -/
def isHex (c : Char) : Bool := c.isDigit || 'a' ≤ c && c ≤ 'f' || 'A' ≤ c && c ≤ 'F'

/-- What stands between the quotation marks of a string. -/
inductive Content : List Char → Prop
  | nil : Content []
  | plain {c : Char} {cs : List Char} (hc : 0x20 ≤ c.toNat ∧ c ≠ '"' ∧ c ≠ '\\') (hcs : Content cs) :
      Content (c :: cs)
  | escape {c : Char} {cs : List Char} (hc : c ∈ ['"', '\\', '/', 'b', 'f', 'n', 'r', 't']) (hcs : Content cs) :
      Content ('\\' :: c :: cs)
  | hex {a b c d : Char} {cs : List Char} (hhex : ∀ x ∈ [a, b, c, d], isHex x) (hcs : Content cs) :
      Content ('\\' :: 'u' :: a :: b :: c :: d :: cs)

/-- A literal with the label of its kind. -/
inductive Literal : Label → List Char → Prop
  | string {content : List Char} (h : Content content) : Literal "string" ('"' :: (content ++ ['"']))
  | number {cs : List Char} (h : Number cs) : Literal "number" cs
  | true : Literal "boolean" ['t', 'r', 'u', 'e']
  | false : Literal "boolean" ['f', 'a', 'l', 's', 'e']
  | null : Literal "null" ['n', 'u', 'l', 'l']

/-! ## Documents -/

/-- What a document consists of. -/
inductive Lexeme where
  /-- A blank or a character of punctuation. -/
  | char (c : Char)
  | literal (label : Label) (text : List Char)
deriving DecidableEq

/-- The text of a lexeme. -/
def Lexeme.text : Lexeme → List Char
  | char c => [c]
  | literal _ text => text

/-- The text of some lexemes. -/
def text (ls : List Lexeme) : List Char := ls.flatMap Lexeme.text

/-- The literals among some lexemes, marked where they stand in a text that begins at an offset. -/
def marks (offset : Nat) : List Lexeme → List Mark
  | [] => []
  | .char _ :: ls => marks (offset + 1) ls
  | .literal label cs :: ls => .labeled offset (offset + cs.length) label :: marks (offset + cs.length) ls

/-- Blanks, if anything. -/
def Blanks (ls : List Lexeme) : Prop := ∀ x ∈ ls, ∃ c ∈ [' ', '\t', '\n', '\r'], x = .char c

/-- A character of punctuation with blanks around it. -/
inductive Punctuation (c : Char) : List Lexeme → Prop
  | mk {before after : List Lexeme} (hbefore : Blanks before) (hafter : Blanks after) :
      Punctuation c (before ++ .char c :: after)

mutual

/-- A value. -/
inductive Value : List Lexeme → Prop
  | literal {label : Label} {cs : List Char} (h : Literal label cs) : Value [.literal label cs]
  | emptyObject {first last : List Lexeme} (hfirst : Punctuation '\x7B' first) (hlast : Punctuation '\x7D' last) :
      Value (first ++ last)
  | object {first members last : List Lexeme} (hfirst : Punctuation '\x7B' first) (hmembers : Members members)
      (hlast : Punctuation '\x7D' last) : Value (first ++ (members ++ last))
  | emptyArray {first last : List Lexeme} (hfirst : Punctuation '[' first) (hlast : Punctuation ']' last) :
      Value (first ++ last)
  | array {first items last : List Lexeme} (hfirst : Punctuation '[' first) (hitems : Items items)
      (hlast : Punctuation ']' last) : Value (first ++ (items ++ last))

/-- One member of an object or more. -/
inductive Members : List Lexeme → Prop
  | single {key : List Char} {colon value : List Lexeme} (hkey : Literal "string" key)
      (hcolon : Punctuation ':' colon) (hvalue : Value value) :
      Members (.literal "string" key :: (colon ++ value))
  | cons {key : List Char} {colon value comma more : List Lexeme} (hkey : Literal "string" key)
      (hcolon : Punctuation ':' colon) (hvalue : Value value) (hcomma : Punctuation ',' comma)
      (hmore : Members more) : Members (.literal "string" key :: (colon ++ (value ++ (comma ++ more))))

/-- One item of an array or more. -/
inductive Items : List Lexeme → Prop
  | single {value : List Lexeme} (hvalue : Value value) : Items value
  | cons {value comma more : List Lexeme} (hvalue : Value value) (hcomma : Punctuation ',' comma)
      (hmore : Items more) : Items (value ++ (comma ++ more))

end

/-- A document. -/
inductive Document : List Lexeme → Prop
  | mk {before value after : List Lexeme} (hbefore : Blanks before) (hvalue : Value value) (hafter : Blanks after) :
      Document (before ++ (value ++ after))

/-! ## Literals do not touch -/

/-- The characters that stand between literals. -/
def delimiters : List Char := [' ', '\t', '\n', '\r', '\x7B', '\x7D', '[', ']', ':', ',']

/-- Lexemes of which no two that follow one another are literals. -/
inductive Loose : List Lexeme → Prop
  | nil : Loose []
  | char {c : Char} {ls : List Lexeme} (hc : c ∈ delimiters) (hls : Loose ls) : Loose (.char c :: ls)
  | last {label : Label} {cs : List Char} (h : Literal label cs) : Loose [.literal label cs]
  | literal {label : Label} {cs : List Char} {c : Char} {ls : List Lexeme} (h : Literal label cs)
      (hc : c ∈ delimiters) (hls : Loose ls) : Loose (.literal label cs :: .char c :: ls)

/-- Lexemes that a literal may stand before. -/
inductive Detached : List Lexeme → Prop
  | nil : Detached []
  | char {c : Char} {ls : List Lexeme} (hc : c ∈ delimiters) (hls : Loose ls) : Detached (.char c :: ls)

variable {ls more : List Lexeme} {c : Char}

theorem Detached.loose (h : Detached more) : Loose more := by
  cases h with
  | nil => exact .nil
  | char hc hls => exact .char hc hls

theorem Detached.cons_literal {label : Label} {cs : List Char} (h : Literal label cs) (hmore : Detached more) :
    Loose (.literal label cs :: more) := by
  cases hmore with
  | nil => exact .last h
  | char hc hls => exact .literal h hc hls

theorem Blanks.loose (h : Blanks ls) (hmore : Loose more) : Loose (ls ++ more) := by
  induction ls with
  | nil => exact hmore
  | cons x ls ih =>
    obtain ⟨⟨c, hc, rfl⟩, hls⟩ := List.forall_mem_cons.1 h
    exact .char (List.mem_append_left _ hc) (ih hls)

theorem Blanks.detached (h : Blanks ls) (hmore : Detached more) : Detached (ls ++ more) := by
  cases ls with
  | nil => exact hmore
  | cons x ls =>
    obtain ⟨⟨c, hc, rfl⟩, hls⟩ := List.forall_mem_cons.1 h
    exact .char (List.mem_append_left _ hc) (Blanks.loose hls hmore.loose)

theorem Punctuation.detached (h : Punctuation c ls) (hc : c ∈ delimiters) (hmore : Loose more) :
    Detached (ls ++ more) := by
  obtain ⟨hbefore, hafter⟩ := h
  rw [List.append_assoc]
  exact hbefore.detached (.char hc (hafter.loose hmore))

mutual

theorem Value.loose {more : List Lexeme} (hmore : Detached more) : ∀ {ls}, Value ls → Loose (ls ++ more)
  | _, .literal h => hmore.cons_literal h
  | _, .emptyObject hfirst hlast | _, .emptyArray hfirst hlast => by
    rw [List.append_assoc]
    exact (hfirst.detached (by decide) (hlast.detached (by decide) hmore.loose).loose).loose
  | _, .object hfirst hmembers hlast => by
    rw [List.append_assoc, List.append_assoc]
    exact (hfirst.detached (by decide) (hmembers.loose (hlast.detached (by decide) hmore.loose))).loose
  | _, .array hfirst hitems hlast => by
    rw [List.append_assoc, List.append_assoc]
    exact (hfirst.detached (by decide) (hitems.loose (hlast.detached (by decide) hmore.loose))).loose

theorem Members.loose {more : List Lexeme} (hmore : Detached more) : ∀ {ls}, Members ls → Loose (ls ++ more)
  | _, .single hkey hcolon hvalue => by
    rw [List.cons_append, List.append_assoc]
    exact (hcolon.detached (by decide) (hvalue.loose hmore)).cons_literal hkey
  | _, .cons hkey hcolon hvalue hcomma hmembers => by
    rw [List.cons_append, List.append_assoc, List.append_assoc, List.append_assoc]
    have hrest := hcomma.detached (by decide) (hmembers.loose hmore)
    exact (hcolon.detached (by decide) (hvalue.loose hrest)).cons_literal hkey

theorem Items.loose {more : List Lexeme} (hmore : Detached more) : ∀ {ls}, Items ls → Loose (ls ++ more)
  | _, .single hvalue => hvalue.loose hmore
  | _, .cons hvalue hcomma hitems => by
    rw [List.append_assoc, List.append_assoc]
    exact hvalue.loose (hcomma.detached (by decide) (hitems.loose hmore))

end

theorem Document.loose (h : Document ls) : Loose ls := by
  obtain ⟨hbefore, hvalue, hafter⟩ := h
  have hend := hafter.detached .nil
  rw [List.append_nil] at hend
  exact hbefore.loose (hvalue.loose hend)

end Highlight.Grammar
