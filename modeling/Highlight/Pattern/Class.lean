import Highlight.Pattern.Lexeme

/-!
# Bracketed character classes

A class lists characters, ranges, escapes, named sets and nested classes. It may combine such lists
by `&&`, `--` and `~~`, from left to right and binding less tightly than the lists, and a caret at
its front takes the complement. The reader keeps the classes that are open in a list, the innermost
first.
-/

namespace Highlight.Pattern

/-- The operations between two parts of a class. -/
inductive SetOp where
  | inter
  | diff
  | symmDiff

/-- The set an operation gives. -/
def SetOp.apply : SetOp → CharSet → CharSet → CharSet
  | inter => .inter
  | diff => .diff
  | symmDiff => .symmDiff

/-- What was read of a class: its set, and how deeply the parts nest in it. -/
structure ClassPart where
  set : CharSet
  height : Nat

/-- A class whose closing bracket has not been read. -/
structure OpenClass where
  negated : Bool
  /-- The operation that waits for its second part, and its first part. -/
  pending : Option (SetOp × ClassPart)
  /-- The items listed since, their number, and the greatest of their heights. -/
  items : CharSet
  count : Nat
  height : Nat

namespace OpenClass

/-- Nothing read yet. -/
def new (negated : Bool) : OpenClass := ⟨negated, none, .none, 0, 0⟩

/-- One more item. -/
def add (c : OpenClass) (item : ClassPart) : OpenClass :=
  { c with
    items := c.items.union item.set
    count := c.count + 1
    height := max c.height item.height }

/-- The items listed since the last operation. -/
def listed (c : OpenClass) : ClassPart := ⟨c.items, if c.count < 2 then c.height else c.height + 1⟩

/-- All that was read. -/
def value (flags : Flags) (c : OpenClass) : ClassPart :=
  let last := c.listed
  match c.pending with
  | none => last
  | some (op, first) =>
    ⟨op.apply (flags.set first.set) (flags.set last.set), max first.height last.height + 1⟩

/-- An operation was read. -/
def operate (flags : Flags) (op : SetOp) (c : OpenClass) : OpenClass :=
  { new c.negated with pending := some (op, c.value flags) }

/-- The closing bracket was read. -/
def close (flags : Flags) (c : OpenClass) : Except SyntaxError ClassPart := do
  let part := c.value flags
  return ⟨← flags.accept (flags.setOrRest c.negated part.set), part.height + 1⟩

end OpenClass

/-- The beginning of a class after its opening bracket and its caret: hyphens stand for themselves, and
so does a closing bracket that comes first. -/
def readClassFront (flags : Flags) (negated : Bool) (text : List Char) :
    Except SyntaxError (OpenClass × List Char) :=
  let (hyphens, text) := takeChars flags (· == '-') false [] text
  let opened := hyphens.foldl (fun c h => c.add ⟨.single h, 0⟩) (OpenClass.new negated)
  match hyphens, text with
  | _, [] => .error .classUnclosed
  | [], ']' :: rest =>
    match flags.skip rest with
    | [] => .error .classUnclosed
    | rest => .ok (opened.add ⟨.single ']', 0⟩, rest)
  | _, text => .ok (opened, text)

/-- The beginning of a class after its opening bracket. A caret negates it. -/
def readClassStart (flags : Flags) (text : List Char) :
    Except SyntaxError (OpenClass × List Char) :=
  match flags.skip text with
  | '^' :: rest => readClassFront flags true (flags.skip rest)
  | text => readClassFront flags false text

/-- A set by its name, which ends before `:]`. -/
def readSetName? (text : List Char) : Option (CharSet × List Char) :=
  match text.dropWhile (· != ':') with
  | ':' :: ']' :: rest =>
    (CharSet.named? (.ofList (text.takeWhile (· != ':')))).map fun s => (s, rest)
  | _ => none

/-- A named set such as `[:alpha:]` or `[:^alpha:]`, after its opening bracket. -/
def readNamedSet? (flags : Flags) : List Char → Option (CharSet × List Char)
  | ':' :: '^' :: text =>
    (readSetName? text).map fun found => (flags.setOrRest true found.1, found.2)
  | ':' :: text => (readSetName? text).map fun found => (flags.setOrRest false found.1, found.2)
  | _ => none

/-- Whether a hyphen before `text` stands for itself or begins an operation, and so makes no
range. -/
def endsItem (flags : Flags) (text : List Char) : Bool :=
  let text :=
    if flags.verbose then
      match text.dropWhile Unicode.isSpace with
      | '#' :: rest => rest.dropWhile Unicode.isSpace
      | rest => rest
    else text
  text.head? == some ']' || text.head? == some '-'

section Properties

variable (properties : Properties)

/-- One item of a class, which may become the end of a range. -/
def readClassItem (flags : Flags) : List Char → Except SyntaxError (Atom × List Char)
  | [] => .error .classUnclosed
  | '\\' :: rest => readEscape properties flags rest
  | c :: rest => .ok (.char c, rest)

/-- One item or one range of a class. -/
def readClassRange (flags : Flags) (text : List Char) :
    Except SyntaxError (CharSet × List Char) := do
  let (first, rest) ← readClassItem properties flags text
  let single : Except SyntaxError CharSet :=
    match first with
    | .char c => flags.accept (.single c)
    | .set s => .ok s
    | .check _ => .error .classEscapeInvalid
  match flags.skip rest with
  | [] => .error .classUnclosed
  | '-' :: rest =>
    if endsItem flags rest then return (← single, '-' :: rest)
    let (last, rest) ← readClassItem properties flags (flags.skip rest)
    match first, last with
    | .char a, .char b =>
      if a ≤ b then return (← flags.accept (.range a b), rest) else .error .classRangeInvalid
    | _, _ => .error .classRangeInvalid
  | rest => return (← single, rest)

/-- The rest of a class that is open inside the classes `outer`. Each round reads something, so
`limit` need not exceed the length of the text. -/
def readClassItems (flags : Flags) :
    Nat → OpenClass → List OpenClass → List Char → Except SyntaxError (ClassPart × List Char)
  | 0, _, _, _ => .error .classUnclosed
  | limit + 1, c, outer, text =>
    match flags.skip text with
    | [] => .error .classUnclosed
    | '[' :: rest =>
      match readNamedSet? flags rest with
      | some (s, rest) => do
        readClassItems flags limit (c.add ⟨← flags.accept s, 0⟩) outer rest
      | none => do
        let (new, rest) ← readClassStart flags rest
        readClassItems flags limit new (c :: outer) rest
    | ']' :: rest => do
      let part ← c.close flags
      match outer with
      | [] => return (part, rest)
      | parent :: outer => readClassItems flags limit (parent.add part) outer rest
    | '&' :: '&' :: rest => readClassItems flags limit (c.operate flags .inter) outer rest
    | '-' :: '-' :: rest => readClassItems flags limit (c.operate flags .diff) outer rest
    | '~' :: '~' :: rest => readClassItems flags limit (c.operate flags .symmDiff) outer rest
    | text => do
      let (s, rest) ← readClassRange properties flags text
      readClassItems flags limit (c.add ⟨s, 0⟩) outer rest

/-- A class, after its opening bracket. -/
def readClass (flags : Flags) (text : List Char) : Except SyntaxError (ClassPart × List Char) := do
  let (c, rest) ← readClassStart flags text
  readClassItems properties flags (rest.length + 1) c [] rest

end Properties

end Highlight.Pattern
