import Highlight.Pattern.Class
import Highlight.Pattern.Footprint

/-!
# Reading patterns

The text of a pattern is read from left to right, one item at a time, by a machine that keeps the
groups still open in a list. Flags set inside a group hold up to its end. A pattern whose parts nest
too deeply, or that would be too large, is refused.

* `lex`: reads one item, which depends on the flags and on the properties known only;
* `Parser.act`: what is done with an item read;
* `Pattern.parse`: the pattern that a text describes, or why it describes none.
-/

namespace Highlight

/-- A pattern: the text it was read from, its expression, and the named groups by number, in
ascending order. -/
structure Pattern where
  source : String
  expr : Pattern.Expr
  groupNames : List (String × Nat)

namespace Pattern

/-- The number of levels to which groups, repetitions, sequences, alternatives and classes may nest
inside one another. -/
def nestingLimit : Nat := 250

/-! ## Items -/

/-- What an item of a pattern's text says. -/
inductive Token where
  /-- A character of a set, in which classes nest to some height. -/
  | chars (set : CharSet) (height : Nat)
  /-- The dot, with what it accepts. -/
  | dot (set : CharSet)
  | check (condition : Condition)
  /-- Flags for the rest of the group. -/
  | flags (flags : Flags)
  /-- The beginning of a group that does not capture, with its flags. -/
  | openPlain (flags : Flags)
  | openCapture
  | openNamed (name : String)
  /-- The end of a group. -/
  | close
  /-- The end of an alternative. -/
  | bar
  | repeated (least : Nat) (most : Option Nat) (greedy : Bool)

/-- An atom under some flags. -/
def lexAtom (flags : Flags) : Atom → Token
  | .char c => .chars (flags.mark (flags.set (.single c))) 0
  | .set s => .chars s 0
  | .check condition => .check condition

/-- A repetition sign, followed by a question mark if it prefers fewer rounds. -/
def lexSign (least : Nat) (most : Option Nat) : List Char → Token × List Char
  | '?' :: rest => (.repeated least most false, rest)
  | rest => (.repeated least most true, rest)

/-- What begins with an opening parenthesis and a question mark. -/
def lexMarked (flags : Flags) : List Char → Except SyntaxError (Token × List Char)
  | '=' :: _ | '!' :: _ | '<' :: '=' :: _ | '<' :: '!' :: _ => .error .lookAround
  | 'P' :: '<' :: text | '<' :: text => do
    let (name, rest) ← readName text
    return (.openNamed name, rest)
  | text => do
    let (flags, stop, rest) ← readFlags flags [] text
    return (if stop = ':' then .openPlain flags else .flags flags, rest)

/-- What begins with an opening parenthesis: a group, or flags for the rest of the current one. -/
def lexGroup (flags : Flags) (text : List Char) : Except SyntaxError (Token × List Char) :=
  match flags.skip text with
  | '?' :: rest => lexMarked flags rest
  | rest => .ok (.openCapture, rest)

/-- The dot under some flags. There is none for bytes. -/
def lexDot (flags : Flags) : Except SyntaxError Token :=
  if !flags.unicode then .error .notUtf8
  else .ok (.dot (if flags.dotAll then .any else if flags.crlf then .notCrlf else .notNewline))

/-- What `^` stands for. -/
def Flags.lineStart (flags : Flags) : Condition :=
  if !flags.multiline then .textStart else if flags.crlf then .crlfLineStart else .lineStart

/-- What `$` stands for. -/
def Flags.lineEnd (flags : Flags) : Condition :=
  if !flags.multiline then .textEnd else if flags.crlf then .crlfLineEnd else .lineEnd

/-- Reads one item, which begins with `c`. -/
def lex (properties : Properties) (flags : Flags) (c : Char) (rest : List Char) :
    Except SyntaxError (Token × List Char) :=
  match c with
  | '(' => lexGroup flags rest
  | ')' => .ok (.close, rest)
  | '|' => .ok (.bar, rest)
  | '[' => do
    let (c, rest) ← readClass properties flags rest
    return (.chars c.set c.height, rest)
  | '?' => .ok (lexSign 0 (some 1) rest)
  | '*' => .ok (lexSign 0 none rest)
  | '+' => .ok (lexSign 1 none rest)
  | '\x7B' => do
    let ((least, most), rest) ← readBounds flags rest
    return lexSign least most (flags.skip rest)
  | '\\' => do
    let (atom, rest) ← readEscape properties flags rest
    return (lexAtom flags atom, rest)
  | '.' => do return (← lexDot flags, rest)
  | '^' => .ok (.check flags.lineStart, rest)
  | '$' => .ok (.check flags.lineEnd, rest)
  | c => .ok (lexAtom flags (.char c), rest)

/-! ## Parts -/

/-- A part of a pattern: its expression, and how deeply the parts nest in it. -/
structure Piece where
  expr : Expr
  height : Nat

namespace Piece

/-- A part in which nothing nests. -/
def flat (e : Expr) : Piece := ⟨e, 0⟩

/-- A part that others nest in. -/
def around (pieces : List Piece) (e : Expr) : Piece :=
  ⟨e, pieces.foldl (fun h p => max h p.height) 0 + 1⟩

/-- Several parts one after the other. -/
def sequence : List Piece → Piece
  | [p] => p
  | [] => flat .empty
  | ps => around ps (.seqOf (ps.map (·.expr)))

/-- Several parts to choose from. -/
def choice : List Piece → Piece
  | [p] => p
  | ps => around ps (.altOf (ps.map (·.expr)))

end Piece

/-- Alternatives under construction. -/
structure Branches where
  /-- The finished alternatives, the last one first. -/
  finished : List Piece
  /-- The items of the current alternative, the last one first. -/
  items : List Piece
  /-- Whether a repetition sign may follow. -/
  repeatable : Bool

namespace Branches

/-- Nothing read yet. -/
def empty : Branches := ⟨[], [], false⟩

/-- One more item. -/
def add (b : Branches) (p : Piece) : Branches := { b with items := p :: b.items, repeatable := true }

/-- One more item that stands for nothing and cannot be repeated. -/
def addNothing (b : Branches) : Branches :=
  { b with items := .flat .empty :: b.items, repeatable := false }

/-- The current alternative is complete. -/
def next (b : Branches) : Branches := ⟨.sequence b.items.reverse :: b.finished, [], false⟩

/-- All alternatives. -/
def piece (b : Branches) : Piece := .choice b.next.finished.reverse

end Branches

/-- A group whose closing parenthesis has not been read. -/
structure OpenGroup where
  /-- The number of a capturing group. -/
  index : Option Nat
  /-- The flags that hold again after the group. -/
  flags : Flags
  /-- What the group stands in. -/
  outer : Branches

/-- What has been read of a pattern. -/
structure Parser where
  branches : Branches
  /-- The open groups, the innermost first. -/
  groups : List OpenGroup
  flags : Flags
  /-- The number of capturing groups so far. -/
  captures : Nat
  /-- The named groups so far, the last one first. -/
  names : List (String × Nat)

namespace Parser

/-- Nothing read yet. -/
def initial : Parser := ⟨.empty, [], {}, 0, []⟩

/-- One more item, unless its parts nest too deeply. -/
def add (p : Parser) (item : Piece) : Except SyntaxError Parser :=
  if item.height ≤ nestingLimit then .ok { p with branches := p.branches.add item }
  else .error .tooDeep

/-- A group begins. -/
def openGroup (p : Parser) (index : Option Nat) (flags : Flags) : Parser :=
  { p with
    branches := .empty
    groups := ⟨index, p.flags, p.branches⟩ :: p.groups
    flags := flags }

/-- A capturing group begins. -/
def openCapture (p : Parser) : Parser :=
  { p.openGroup (some (p.captures + 1)) p.flags with captures := p.captures + 1 }

/-- A capturing group with a name begins. -/
def openNamed (p : Parser) (name : String) : Except SyntaxError Parser :=
  if p.names.any (·.1 == name) then .error (.groupNameRepeated name)
  else .ok { p.openCapture with names := (name, p.captures + 1) :: p.names }

/-- The innermost group ends. -/
def closeGroup (p : Parser) : Except SyntaxError Parser :=
  match p.groups with
  | [] => .error .groupUnopened
  | g :: groups =>
    let body := p.branches.piece
    let item := match g.index with
      | some index => Expr.group index body.expr
      | none => body.expr
    { p with branches := g.outer, groups := groups, flags := g.flags }.add (.around [body] item)

/-- The last item is repeated. -/
def repeatLast (p : Parser) (least : Nat) (most : Option Nat) (greedy : Bool) :
    Except SyntaxError Parser :=
  match p.branches.repeatable, p.branches.items with
  | true, item :: items =>
    { p with branches := { p.branches with items := items } }.add
      (.around [item] (.loopOf least most (greedy != p.flags.swapGreed) item.expr))
  | _, _ => .error .nothingToRepeat

/-- What is done with an item. -/
def act (p : Parser) : Token → Except SyntaxError Parser
  | .chars s height => p.add ⟨.ofSet s, height⟩
  | .dot s => p.add (.flat (.one s))
  | .check condition => p.add (.flat (.check condition))
  | .flags flags => .ok { p with flags := flags, branches := p.branches.addNothing }
  | .openPlain flags => .ok (p.openGroup none flags)
  | .openCapture => .ok p.openCapture
  | .openNamed name => p.openNamed name
  | .close => p.closeGroup
  | .bar => .ok { p with branches := p.branches.next }
  | .repeated least most greedy => p.repeatLast least most greedy

section Properties

variable (properties : Properties)

/-- Reads one item, which begins with `c`, and does what it says. A count with nothing to repeat is wrong
before it is read. -/
def step (p : Parser) (c : Char) (rest : List Char) : Except SyntaxError (Parser × List Char) := do
  if c = '\x7B' ∧ !p.branches.repeatable then .error .nothingToRepeat
  let (token, rest) ← lex properties p.flags c rest
  return (← p.act token, rest)

/-- Reads items up to the end of the text. Each one takes at least a character, so `limit` need not
exceed the length of the text. -/
def run : Nat → Parser → List Char → Except SyntaxError Parser
  | 0, p, _ => .ok p
  | limit + 1, p, text =>
    match p.flags.skip text with
    | [] => .ok p
    | c :: rest => do
      let (p, rest) ← p.step properties c rest
      run limit p rest

end Properties

/-- The pattern read, once the text has ended. -/
def finish (p : Parser) (source : String) : Except SyntaxError Pattern :=
  let whole := p.branches.piece
  if !p.groups.isEmpty then .error .groupUnclosed
  else if nestingLimit < whole.height then .error .tooDeep
  else if footprintLimit < whole.expr.footprint then .error .tooLarge
  else .ok ⟨source, whole.expr, p.names.reverse⟩

end Parser

/-- The pattern that a text describes, where some properties of characters are known. -/
def parse (properties : Properties) (source : String) : Except SyntaxError Pattern := do
  let text := source.toList
  (← Parser.run properties text.length .initial text).finish source

end Pattern

end Highlight
