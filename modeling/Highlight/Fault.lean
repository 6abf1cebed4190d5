/-!
# Faults

What makes a computation break off without an answer. A fault is no result and no error of the
domain: it stops everything up to the nearest place that keeps faults apart, such as a background
computation of styles.
-/

namespace Highlight

/-- Why a computation broke off. -/
inductive Fault where
  /-- A sum of lengths does not fit into 64 bits. -/
  | lengthOverflow
  /-- A difference of lengths is below zero. -/
  | lengthUnderflow
  /-- More room was asked for than can be addressed. -/
  | roomOverflow
  /-- Code supplied by a language or a contributor gave up, with a message if it had one. -/
  | raised (message : Option String)
  /-- A worker cannot be started under a name that contains the character with code zero. -/
  | zeroInName (name : String)
deriving DecidableEq, Repr

/-- Whether a name contains the character with code zero. -/
def containsZero (name : String) : Bool := name.toList.contains '\x00'

/-- The bytes of a name in UTF-8, with the position of the first that is zero. -/
def describeBytes (name : String) : String :=
  let bytes := name.toList.flatMap String.utf8EncodeChar
  let listed := ", ".intercalate (bytes.map fun b => toString b.toNat)
  s!"({bytes.idxOf 0}, [{listed}])"

/-- The text a fault is reported with. -/
def Fault.message : Fault → String
  | lengthOverflow => "attempt to add with overflow"
  | lengthUnderflow => "attempt to subtract with overflow"
  | roomOverflow => "capacity overflow"
  | raised (some text) => text
  | raised none => "non-string panic payload"
  | zeroInName name =>
    "thread name may not contain interior null bytes: NulError" ++ describeBytes name

/-! ## Computations that can break off -/

theorem ok_bind {ε α β : Type} (x : α) (f : α → Except ε β) : (Except.ok x >>= f) = f x := rfl

theorem error_bind {ε α β : Type} (error : ε) (f : α → Except ε β) :
    (Except.error error >>= f) = .error error := rfl

theorem bind_eq_ok {ε α β : Type} {x : Except ε α} {f : α → Except ε β} {b : β} :
    x >>= f = .ok b ↔ ∃ a, x = .ok a ∧ f a = .ok b := by
  cases x with
  | error e =>
    constructor
    · intro h
      cases h
    · rintro ⟨_, h, -⟩
      cases h
  | ok a =>
    constructor
    · exact fun h => ⟨a, rfl, h⟩
    · rintro ⟨_, h, hb⟩
      cases h
      exact hb

theorem pure_eq_ok {ε α : Type} {a b : α} : (pure a : Except ε α) = .ok b ↔ a = b :=
  ⟨Except.ok.inj, congrArg Except.ok⟩

end Highlight
