/-!
# Tokens of cancellation

Who runs a computation holds a token, through which it learns that it should stop. A copy of a token
shares its flag: whoever cancels one of them has cancelled the other too, whenever the copy was
made. What has been cancelled stays so.

* `Tokens.states`: which tokens are cancelled.
-/

namespace Highlight

/-- The tokens made so far, numbered in order. -/
structure Tokens where
  /-- The flag that each token looks at. -/
  flags : List Nat
  /-- The flags that are set. -/
  raised : List Nat

namespace Tokens

/-- A single token. -/
def one : Tokens := ⟨[0], []⟩

/-- Makes a token with a flag of its own. -/
def create (t : Tokens) : Tokens := { t with flags := t.flags ++ [t.flags.length] }

/-- Makes a copy of the token with a number. -/
def copy (t : Tokens) (token : Nat) : Tokens :=
  { t with flags := t.flags ++ t.flags[token]?.toList }

/-- Cancels the token with a number. -/
def cancel (t : Tokens) (token : Nat) : Tokens :=
  { t with raised := t.flags[token]?.toList ++ t.raised }

/-- Whether each of the tokens is cancelled. -/
def states (t : Tokens) : List Bool := t.flags.map fun flag => decide (flag ∈ t.raised)

end Tokens

end Highlight
