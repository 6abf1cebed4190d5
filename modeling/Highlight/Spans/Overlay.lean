import Highlight.Spans.Basic

/-!
# Overlaying span sets

Two descriptions of one text put over each other: every character carries the labels of both. Where
one set ends before the other, the rest of the longer one stands as it is.

* `overlayRun`: one run over the beginning of a list of runs;
* `Spans.merge`: the overlay of two span sets, built anew so that it is normal.
-/

namespace Highlight

/-- `n` characters with `labels` over the beginning of a list of runs: the runs they give, and
what is left of the list. -/
def overlayRun (labels : Labels) (n : Nat) : List Run → List Run × List Run
  | [] => ([⟨n, labels⟩], [])
  | s :: runs =>
    if n < s.length then
      ([⟨n, labels.union s.labels⟩], ⟨s.length - n, s.labels⟩ :: runs)
    else
      let (overlaid, left) := overlayRun labels (n - s.length) runs
      (⟨s.length, labels.union s.labels⟩ :: overlaid, left)

/-- The runs of two lists laid over each other, not yet normal. -/
def overlay : List Run → List Run → List Run
  | [], runs => runs
  | r :: rest, runs =>
    let (overlaid, left) := overlayRun r.labels r.length runs
    overlaid ++ overlay rest left

/-- At every offset the labels of both sets; the tail of the longer one is kept. -/
def Spans.merge (a b : Spans) : Except Fault Spans :=
  build (overlay a.runs b.runs)

end Highlight
