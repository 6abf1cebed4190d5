import Highlight.Spans.Overlay

/-!
# Overlaying in one pass

How an overlay is made without laying one run list over the other: two cursors go through both lists
side by side. Each step takes the labels at both cursors for as many characters as both still have,
adds them to what is built, and moves both cursors on. Lengths are machine words, so each sum and
difference that the pass computes may be a fault.

* `RunCursor`: a place inside a list of runs;
* `Spans.Walk.step`, `Spans.Walk.run`: one step, and all of them. A step uses up a run of one list at
  least, so there is a last one.
-/

namespace Highlight

/-- A place inside a list of runs. -/
structure RunCursor where
  /-- The run with the place and those after it. -/
  runs : List Run
  /-- How much of the first run lies before the place. -/
  used : Nat

namespace RunCursor

/-- The place before a list of runs. -/
def start (runs : List Run) : RunCursor := ⟨runs, 0⟩

/-- The labels at the place, and for how many characters they last. -/
def current (c : RunCursor) : Except Fault (Option Run) :=
  match c.runs with
  | [] => .ok none
  | r :: _ => return some ⟨← lengthSub r.length c.used, r.labels⟩

/-- The place `n` characters on, if that is in the same run, and otherwise that before the next
run. -/
def advance (c : RunCursor) (n : Nat) : Except Fault RunCursor :=
  match c.runs with
  | [] => .ok c
  | r :: rest => do
    let used ← lengthAdd c.used n
    return if r.length ≤ used then start rest else ⟨c.runs, used⟩

variable {c d : RunCursor} {r s : Run} {rest : List Run} {n : Nat}

theorem current_eq_ok (hruns : c.runs = r :: rest) {current : Option Run} :
    c.current = .ok current ↔
      c.used ≤ r.length ∧ some ⟨r.length - c.used, r.labels⟩ = current := by
  simp only [RunCursor.current, hruns, bind_eq_ok, lengthSub_eq_ok, pure_eq_ok]
  constructor
  · rintro ⟨_, ⟨hused, rfl⟩, hcurrent⟩
    exact ⟨hused, hcurrent⟩
  · rintro ⟨hused, hcurrent⟩
    exact ⟨_, ⟨hused, rfl⟩, hcurrent⟩

theorem advance_eq_ok (hruns : c.runs = r :: rest) :
    c.advance n = .ok d ↔ c.used + n ≤ maxLength ∧
      (if r.length ≤ c.used + n then start rest else ⟨r :: rest, c.used + n⟩) = d := by
  simp only [RunCursor.advance, hruns, bind_eq_ok, lengthAdd_eq_ok, pure_eq_ok]
  constructor
  · rintro ⟨_, ⟨hfits, rfl⟩, hd⟩
    exact ⟨hfits, hd⟩
  · rintro ⟨hfits, hd⟩
    exact ⟨_, ⟨hfits, rfl⟩, hd⟩

/-- A cursor passes no more runs than there are, and one at least if it skips all that is left of
the current one. -/
theorem length_runs_of_advance (h : c.advance n = .ok d) :
    d.runs.length ≤ c.runs.length ∧
      ∀ r, c.current = .ok (some r) → r.length ≤ n → d.runs.length < c.runs.length := by
  cases hruns : c.runs with
  | nil =>
    simp only [advance, hruns, current] at h ⊢
    cases h
    simp [hruns]
  | cons s rest =>
    obtain ⟨-, rfl⟩ := (advance_eq_ok hruns).1 h
    refine ⟨by split <;> simp [start], fun r hr hn => ?_⟩
    obtain ⟨hused, hcurrent⟩ := (current_eq_ok hruns).1 hr
    cases hcurrent
    rw [if_pos (by simp only at hn; omega)]
    exact Nat.lt_succ_self _

end RunCursor

namespace Spans

/-- The labels at two places together, for as long as both last, or those of the one that is not at
the end. -/
def together : Option Run → Option Run → Option Run
  | some r, some s => some ⟨min r.length s.length, r.labels.union s.labels⟩
  | some r, none => some r
  | none, s => s

theorem exists_le_of_together {x y : Option Run} {r : Run} (h : together x y = some r) :
    (∃ s, x = some s ∧ s.length ≤ r.length) ∨ ∃ s, y = some s ∧ s.length ≤ r.length := by
  cases x with
  | none => exact .inr ⟨r, h, Nat.le_refl _⟩
  | some s =>
    cases y with
    | none =>
      cases h
      exact .inl ⟨r, rfl, Nat.le_refl _⟩
    | some t =>
      cases h
      rcases Nat.le_total s.length t.length with hle | hle
      · exact .inl ⟨s, rfl, Nat.le_min.2 ⟨Nat.le_refl _, hle⟩⟩
      · exact .inr ⟨t, rfl, Nat.le_min.2 ⟨hle, Nat.le_refl _⟩⟩

/-- Two lists of runs gone through side by side, and the overlay built of them so far. -/
structure Walk where
  left : RunCursor
  right : RunCursor
  built : Builder

namespace Walk

/-- Before the first step. -/
def start (a b : Spans) : Walk := ⟨.start a.runs, .start b.runs, .empty⟩

/-- A run put behind what is built, and both cursors moved on by its length. -/
def add (w : Walk) (r : Run) : Except Fault Walk := do
  let built ← w.built.add r
  let left ← w.left.advance r.length
  let right ← w.right.advance r.length
  return ⟨left, right, built⟩

/-- One step, unless both lists are at the end. -/
def step (w : Walk) : Except Fault (Option Walk) := do
  match together (← w.left.current) (← w.right.current) with
  | none => return none
  | some r => return some (← w.add r)

variable {w v : Walk} {r : Run}

theorem add_eq_ok : w.add r = .ok v ↔ w.built.add r = .ok v.built ∧
    w.left.advance r.length = .ok v.left ∧ w.right.advance r.length = .ok v.right := by
  obtain ⟨left, right, built⟩ := v
  simp only [add, bind_eq_ok, pure_eq_ok, mk.injEq]
  constructor
  · rintro ⟨_, hbuilt, _, hleft, _, hright, rfl, rfl, rfl⟩
    exact ⟨hbuilt, hleft, hright⟩
  · rintro ⟨hbuilt, hleft, hright⟩
    exact ⟨built, hbuilt, left, hleft, right, hright, rfl, rfl, rfl⟩

theorem step_eq_ok {next : Option Walk} : w.step = .ok next ↔
    ∃ x, w.left.current = .ok x ∧ ∃ y, w.right.current = .ok y ∧
      (together x y = none ∧ none = next ∨
        ∃ r, together x y = some r ∧ ∃ v, w.add r = .ok v ∧ some v = next) := by
  simp only [step, bind_eq_ok]
  refine exists_congr fun x => and_congr_right fun _ => exists_congr fun y =>
    and_congr_right fun _ => ?_
  cases together x y with
  | none => simp [pure_eq_ok]
  | some r =>
    simp only [bind_eq_ok, pure_eq_ok, reduceCtorEq, false_and, false_or, Option.some.injEq,
      exists_eq_left']

/-- The number of runs not gone through. -/
def runsLeft (w : Walk) : Nat := w.left.runs.length + w.right.runs.length

theorem runsLeft_of_step (h : w.step = .ok (some v)) : v.runsLeft < w.runsLeft := by
  obtain ⟨x, hx, y, hy, ⟨-, hnext⟩ | ⟨r, ht, v, hadd, hnext⟩⟩ := step_eq_ok.1 h
  · cases hnext
  cases hnext
  obtain ⟨-, hleft, hright⟩ := add_eq_ok.1 hadd
  obtain ⟨hl, hl'⟩ := RunCursor.length_runs_of_advance hleft
  obtain ⟨hr, hr'⟩ := RunCursor.length_runs_of_advance hright
  unfold runsLeft
  -- The side whose run is the shorter one, or the only one, is past it.
  rcases exists_le_of_together ht with ⟨s, rfl, hs⟩ | ⟨s, rfl, hs⟩
  · have := hl' s hx hs
    omega
  · have := hr' s hy hs
    omega

/-- All steps, and the overlay then built. -/
def run (w : Walk) : Except Fault Spans :=
  match h : w.step with
  | .error fault => .error fault
  | .ok none => .ok w.built.spans
  | .ok (some v) =>
    have := runsLeft_of_step h
    v.run
termination_by w.runsLeft

theorem run_of_end (h : w.step = .ok none) : w.run = .ok w.built.spans := by
  rw [run]
  split <;> simp_all

theorem run_of_step (h : w.step = .ok (some v)) : w.run = v.run := by
  rw [run]
  split <;> simp_all

end Walk

end Spans

end Highlight
