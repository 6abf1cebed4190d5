import Highlight.Pattern.Basic

/-!
# Putting expressions together

Expressions are kept in a simple form: sequences and alternatives are flat and nest to the right
only, characters that follow one another make one text, and a choice between single characters is a
set. What all alternatives begin with is read once, before the choice; this decides which of several
matches is preferred where the common part can be read in more than one way.

* `Expr.ofSet`, `Expr.seqOf`, `Expr.altOf`, `Expr.loopOf`: the ways of putting together.
-/

namespace Highlight.Pattern.Expr

/-! ## Parts -/

/-- What is read one after the other. -/
def items : Expr → List Expr
  | empty => []
  | seq first rest => first :: rest.items
  | e => [e]

/-- What there is to choose from. -/
def branches : Expr → List Expr
  | alt first rest => first :: rest.branches
  | e => [e]

/-- Whether several items are read one after the other. -/
def isSeq : Expr → Bool
  | seq _ _ => true
  | _ => false

/-- The sequence of some items. -/
def ofItems : List Expr → Expr
  | [] => empty
  | [e] => e
  | e :: es => seq e (ofItems es)

/-- The choice between some expressions, the first one preferred; with none, nothing can be read. -/
def ofBranches : List Expr → Expr
  | [] => one .none
  | [e] => e
  | e :: es => alt e (ofBranches es)

/-! ## Lengths -/

/-- The least number of characters that can be read, unless a part can read nothing at all. -/
def minLength? : Expr → Option Nat
  | empty | check _ => some 0
  | text cs => some cs.length
  | one set => if set.isEmpty then none else some 1
  | group _ body => body.minLength?
  | seq first rest => do return (← first.minLength?) + (← rest.minLength?)
  | alt first rest => do return min (← first.minLength?) (← rest.minLength?)
  | loop least _ _ body => body.minLength?.map (least * ·)

/-- Whether a character at least is sure to be read. -/
def alwaysReads (e : Expr) : Bool := e.minLength?.any (0 < ·)

/-- Whether no character is ever read. -/
def neverReads : Expr → Bool
  | empty | check _ => true
  | text _ | one _ => false
  | group _ body => body.neverReads
  | seq first rest => first.neverReads && rest.neverReads
  | alt first rest => first.neverReads && rest.neverReads
  | loop _ most _ body => body.neverReads || most == some 0

/-! ## Ways of putting together -/

/-- One character of a set; a single character is a text. -/
def ofSet (s : CharSet) : Expr :=
  match s.single? with
  | some c => text [c]
  | none => one s

/-- The items with neighbouring texts joined. -/
def joinTexts (es : List Expr) : List Expr :=
  es.foldr (fun e rest =>
    match e, rest with
    | text a, text b :: rest => text (a ++ b) :: rest
    | e, rest => e :: rest) []

/-- Several expressions one after the other. -/
def seqOf (es : List Expr) : Expr := ofItems (joinTexts (es.flatMap items))

/-- The character of a text of one character. -/
def singleChar? : Expr → Option Char
  | text [c] => some c
  | _ => none

/-- The set that one character is chosen from. -/
def set? : Expr → Option CharSet
  | one s => some s
  | _ => none

/-- The choice between expressions that have no beginning in common. -/
def choose (es : List Expr) : Expr :=
  match es with
  | [e] => e
  | es =>
    match es.mapM singleChar? with
    | some cs => ofSet (CharSet.none.addRanges (cs.map fun c => (c.toNat, c.toNat)))
    | none =>
      match es.mapM set? with
      | some sets => ofSet (sets.foldl CharSet.union .none)
      | none => ofBranches es

/-- The number of items that two sequences have in common at their beginnings. -/
def commonLength : List Expr → List Expr → Nat
  | a :: as, b :: bs => if a = b then commonLength as bs + 1 else 0
  | _, _ => 0

/-- The number of items that all of some sequences begin with; none unless each has several. -/
def sharedLength : List Expr → Nat
  | [] => 0
  | e :: es =>
    if es.isEmpty || !(e :: es).all isSeq then 0
    else es.foldl (fun n other => min n (commonLength e.items other.items)) e.items.length

/-- Several expressions to choose from, the first one preferred. -/
def altOf (es : List Expr) : Expr :=
  let es := es.flatMap branches
  match sharedLength es with
  | 0 => choose es
  | n =>
    let shared := ((es.head?.map items).getD []).take n
    let others := es.map fun e => seqOf (e.items.drop n)
    seqOf (shared ++ [choose (others.flatMap branches)])

/-- A repetition. What never reads a character is not repeated. -/
def loopOf (least : Nat) (most : Option Nat) (greedy : Bool) (body : Expr) : Expr :=
  let (least, most) :=
    if body.neverReads then (min least 1, some (min (most.getD 1) 1)) else (least, most)
  if least = 0 ∧ most = some 0 then empty
  else if least = 1 ∧ most = some 1 then body
  else loop least most greedy body

end Highlight.Pattern.Expr
