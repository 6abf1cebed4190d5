import Highlight.Pattern.Parser
import Highlight.Pattern.Program
import Highlight.Pattern.Visited

/-!
# Searching a text

A match of a pattern is a piece of text that it reads: of all pieces the one that starts first, and
of those that start there the preferred one. The matches of a text follow one another without
overlap. An empty match is passed over and the search goes on one character further.

The text is read once, from left to right. At every position the search keeps all ways to go on, in
order of preference: those that started earlier come first. Two ways at the same instruction of the
program cannot be told apart by what follows, so only the preferred one is kept. Hence there are
never more ways than instructions, whatever the text.

* `Program.settle`: follows the instructions that read nothing;
* `Program.search`: the first match from a position on;
* `Pattern.findAll`: all matches that are not empty.
-/

namespace Highlight.Pattern

/-- What the group with some number read last. -/
structure Capture where
  index : Nat
  start : Cursor
  stop : Cursor
deriving DecidableEq, Repr

/-- What a capture read. -/
def Capture.text (c : Capture) : String := c.start.textTo c.stop

/-- A piece of text that a pattern reads. -/
structure Match where
  start : Cursor
  stop : Cursor
  /-- The captures made, the last one first. -/
  captures : List Capture
deriving DecidableEq, Repr

namespace Match

/-- Whether no text is read. -/
def isEmpty (m : Match) : Bool := m.start.offset == m.stop.offset

/-- The text read. -/
def text (m : Match) : String := m.start.textTo m.stop

/-- What the group with a number read last, if it took part. -/
def capture? (m : Match) (index : Nat) : Option Capture := m.captures.find? (·.index == index)

end Match

/-- What the group with a name read last, if there is such a group and it took part. -/
def group? (p : Pattern) (m : Match) (name : String) : Option Capture :=
  (p.groupNames.lookup name).bind m.capture?

/-! ## Ways to go on -/

/-- A way in which a text has been read so far. -/
structure Thread where
  /-- The instruction to go on with. -/
  address : Nat
  /-- Where reading started. -/
  start : Cursor
  /-- The beginnings of the groups that are open, the innermost first. -/
  opened : List Cursor
  /-- The captures made, the last one first. -/
  captures : List Capture
deriving DecidableEq, Repr

namespace Thread

/-- Nothing read yet. -/
def new (p : Cursor) : Thread := ⟨0, p, [], []⟩

/-- Going on at another instruction. -/
def move (t : Thread) (offset : Int) : Thread := { t with address := (t.address + offset).toNat }

/-- A group begins. -/
def openGroup (t : Thread) (p : Cursor) : Thread := { t with opened := p :: t.opened }

/-- The innermost group ends. -/
def closeGroup (t : Thread) (index : Nat) (p : Cursor) : Thread :=
  match t.opened with
  | start :: opened =>
    { t with opened := opened, captures := ⟨index, start, p⟩ :: t.captures }
  | [] => t

/-- What was read, if this is all. -/
def result (t : Thread) (p : Cursor) : Match := ⟨t.start, p, t.captures⟩

end Thread

/-- What an instruction makes of a thread at a position. -/
inductive Step where
  /-- The text has been read. -/
  | accept
  /-- The next character has to be read. -/
  | wait
  /-- The threads that take the place of the one there was, the preferred one first. -/
  | goOn (threads : List Thread)

/-- The ways to go on at one position, the preferred one first. -/
structure Settled where
  /-- Those that wait for the next character. -/
  waiting : List Thread
  /-- One that has read enough and is preferred to all that were given up. -/
  accepted : Option Thread
  /-- The addresses of the program that were visited. -/
  visited : Visited

namespace Program

/-- Follows the instruction that a thread is at. -/
def follow (code : Program) (p : Cursor) (t : Thread) : Step :=
  match code[t.address]? with
  | none => .goOn []
  | some .accept => .accept
  | some (.read _) => .wait
  | some (.check condition) => .goOn (if condition.holds p then [t.move 1] else [])
  | some (.openGroup _) => .goOn [(t.openGroup p).move 1]
  | some (.closeGroup index) => .goOn [(t.closeGroup index p).move 1]
  | some (.jump offset) => .goOn [t.move offset]
  | some (.fork preferred other) => .goOn [t.move preferred, t.move other]

/-- Follows the instructions that read nothing from each of the `pending` threads, the preferred one
first, and leaves out what comes to an instruction that was visited at this position. A thread that
accepts ends this, for those behind it would not be preferred. Each instruction is entered once and
makes two threads at most, so `limit` need not exceed twice their number and that of the threads. -/
def settle (code : Program) (p : Cursor) :
    Nat → Visited → List Thread → List Thread → Settled
  | 0, visited, _, waiting => ⟨waiting.reverse, none, visited⟩
  | _, visited, [], waiting => ⟨waiting.reverse, none, visited⟩
  | limit + 1, visited, t :: pending, waiting =>
    if visited.contains t.address then code.settle p limit visited pending waiting
    else
      let visited := visited.insert t.address
      match code.follow p t with
      | .accept => ⟨waiting.reverse, some t, visited⟩
      | .wait => code.settle p limit visited pending (t :: waiting)
      | .goOn threads => code.settle p limit visited (threads ++ pending) waiting

/-- The ways to go on from some threads, when a new position has been reached. -/
def settled (code : Program) (p : Cursor) (visited : Visited) (threads : List Thread) : Settled :=
  code.settle p (2 * code.size + threads.length + 1) visited.nextRound threads []

/-- The thread after it has read a character, if it waits for one like that. -/
def advance (code : Program) (c : Char) (t : Thread) : Option Thread :=
  match code[t.address]? with
  | some (.read set) => if set.contains c then some (t.move 1) else none
  | _ => none

/-- Goes on with `threads` in the text `rest`, which begins at `offset` behind the character
`before`. Until something was accepted, a new thread starts at every position. -/
def searchFrom (code : Program) (visited : Visited) (threads : List Thread) (best : Option Match)
    (offset : Nat) (before : Option Char) (rest : List Char) : Option Match :=
  let p : Cursor := ⟨offset, before, rest⟩
  let ⟨waiting, accepted, visited⟩ :=
    code.settled p visited (if best.isNone then threads ++ [.new p] else threads)
  let best := (accepted.map (·.result p)).or best
  match rest with
  | [] => best
  | c :: rest =>
    if best.isSome && waiting.isEmpty then best
    else
      code.searchFrom visited (waiting.filterMap (code.advance c)) best (offset + 1) (some c) rest

/-- The first match from a position on. -/
def search (code : Program) (p : Cursor) : Option Match :=
  code.searchFrom (.new code.size) [] none p.offset p.before p.rest

/-- The matches from a position on that are not empty. Every match takes the search further, so
`limit` need not exceed the length of the text. -/
def searchAll (code : Program) : Nat → Cursor → List Match
  | 0, _ => []
  | limit + 1, p =>
    match code.search p with
    | none => []
    | some m =>
      if m.isEmpty then
        if m.stop.rest.isEmpty then [] else code.searchAll limit m.stop.next
      else m :: code.searchAll limit m.stop

end Program

/-- The matches of an expression in a text that are not empty, in order. -/
def Expr.findAll (e : Expr) (text : String) : List Match :=
  e.program.searchAll text.length (.start text.toList)

/-- The matches of a pattern in a text that are not empty, in order. -/
def findAll (p : Pattern) (text : String) : List Match := p.expr.findAll text

end Highlight.Pattern
