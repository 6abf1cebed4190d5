import Highlight.Pattern.Build

/-!
# Programs that read texts

An expression is turned into a list of instructions that is run at a position of a text. Where there
is a choice the preferred way is named first. Addresses in jumps count from the instruction that
jumps, so a piece of a program means the same wherever it stands.

A repetition whose body may read nothing is entered at most once without need: it is an optional
repetition of at least one round. So the first round may read nothing, and no further one is tried
from where a round began before.

* `Expr.code`: the instructions for an expression, left at their end;
* `Expr.program`: the program that accepts behind them.
-/

namespace Highlight.Pattern

/-- One step of reading. -/
inductive Instr where
  /-- The text has been read. -/
  | accept
  /-- Reads a character of a set. -/
  | read (set : CharSet)
  /-- Goes on if a condition holds. -/
  | check (condition : Condition)
  /-- Notes where the group with a number begins. -/
  | openGroup (index : Nat)
  /-- Notes where the group with a number ends. -/
  | closeGroup (index : Nat)
  /-- Goes on elsewhere. -/
  | jump (offset : Int)
  /-- Goes on in one of two places. -/
  | fork (preferred other : Int)
deriving DecidableEq, Repr

/-- The instructions of a pattern, the first one at address 0. -/
abbrev Program := Array Instr

namespace Instr

/-- Goes on with what follows or elsewhere, preferring what follows if `greedy`. -/
def enter (greedy : Bool) (elsewhere : Int) : Instr :=
  if greedy then fork 1 elsewhere else fork elsewhere 1

/-- Goes on elsewhere or with what follows, preferring the former if `greedy`. -/
def again (greedy : Bool) (elsewhere : Int) : Instr :=
  if greedy then fork elsewhere 1 else fork 1 elsewhere

end Instr

section Repetition

variable (greedy : Bool) (body : List Instr)

/-- Exactly `n` rounds. -/
def exactly (n : Nat) : List Instr := (List.replicate n body).flatten

/-- At most `n` rounds, each of which can be left out together with those after it. -/
def atMost (n : Nat) : List Instr :=
  (List.range n).flatMap fun i => .enter greedy ((n - i) * (body.length + 1) : Nat) :: body

/-- Any number of rounds, each of which reads something. -/
def anyNumber : List Instr :=
  .enter greedy (body.length + 2 : Nat) :: body ++ [.jump (-(body.length + 1 : Nat))]

/-- One or more rounds. -/
def oneOrMore : List Instr := body ++ [.again greedy (-(body.length : Nat))]

/-- At least `least` rounds, and at most `most` if there is such a bound; `reads` says that each
round reads something. -/
def repeated (reads : Bool) (least : Nat) (most : Option Nat) : List Instr :=
  match least, most with
  | n, some m => exactly body n ++ atMost greedy body (m - n)
  | 0, none => if reads then anyNumber greedy body else atMost greedy (oneOrMore greedy body) 1
  | n + 1, none => exactly body n ++ oneOrMore greedy body

end Repetition

namespace Expr

/-- The instructions that read an expression. -/
def code : Expr → List Instr
  | empty => []
  | text cs => cs.map fun c => .read (.single c)
  | one s => [.read s]
  | check condition => [.check condition]
  | group index body => .openGroup index :: body.code ++ [.closeGroup index]
  | seq first rest => first.code ++ rest.code
  | alt first rest =>
    let (a, b) := (first.code, rest.code)
    .fork 1 (a.length + 2 : Nat) :: a ++ .jump (b.length + 1 : Nat) :: b
  | loop least most greedy body => repeated greedy body.code body.alwaysReads least most

/-- The program of a pattern with the given expression. -/
def program (e : Expr) : Program := (e.code ++ [Instr.accept]).toArray

end Expr

end Highlight.Pattern
