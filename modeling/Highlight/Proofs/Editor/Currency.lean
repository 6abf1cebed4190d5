import Mathlib.Data.List.Induction
import Highlight.Proofs.Editor.Agreement

/-!
# Styles are those of the present text

Every request was made by one step, of the state that this step led to (`Makes`), and as long as the
request is current, nothing that it captured changes, not even the caret, if styles depend on the
caret whenever it moves (`CaretWatched`). So the styles that an editor shows for a request are the
ones computed from what the editor still holds.

* `Sound.current_step`: a request that is current after a step was current before, or was made by it;
* `Sound.shown_step`: what a step may show;
* `current_request_describes`: both, in every run of a new editor.
-/

namespace Highlight.Editor

/-- The step `s` makes the request `r`, of the state it leads to. -/
structure Makes (e : Editor) (s : Step) (r : Request) : Prop where
  fresh : e.requests.lastNumber < r.number
  current : (e.step s).requests.current = some r
  captured : r = (e.step s).document.request

/-- Styles depend on the caret at every step that moves it. -/
def CaretWatched (e : Editor) : List Step → Prop
  | [] => True
  | s :: steps =>
    ((e.step s).caret ≠ e.caret → e.settings.caretSensitive = true) ∧ (e.step s).CaretWatched steps

/-- The styles of the current request `r` were shown on the way from `e` to `e'`. -/
structure Shows (e e' : Editor) (r : Request) (styles : Spans) : Prop where
  current : e.requests.current = some r
  computed : r.compute.result = .ok (.ok styles)
  announced : e'.shownRequests = r.number :: e.shownRequests
  installed : e'.styles = styles ∧ e'.source = some r.number
  covers : styles.length = e'.length
  describes : r.Describes e'

variable {e e' : Editor}

theorem caretWatched_append {first second : List Step} (h : e.CaretWatched (first ++ second)) :
    e.CaretWatched first ∧ (e.run first).CaretWatched second := by
  induction first generalizing e with
  | nil => exact ⟨trivial, h⟩
  | cons s first ih =>
    obtain ⟨hs, hrest⟩ := h
    obtain ⟨h₁, h₂⟩ := ih hrest
    exact ⟨⟨hs, h₁⟩, h₂⟩

/-! ## Where the current request comes from -/

/-- What becomes current by an operation was captured after it. -/
theorem current_outcome (ho : Outcome e e') {r : Request} (hr : e'.requests.current = some r) :
    (e.requests.current = some r ∧ (e.settings.caretSensitive = true → e'.caret = e.caret)) ∨
      (e.requests.lastNumber < r.number ∧ r = e'.document.request) := by
  cases ho with
  | kept hk hcaret =>
    rw [hk.requests_eq] at hr
    exact .inl ⟨hr, hcaret⟩
  | requested m hm he =>
    subst he
    obtain ⟨hcap, hnum⟩ := current_requestStyles hr
    have hlast : m.requests.lastNumber = e.requests.lastNumber := by rw [hm.requests_eq]
    refine .inr ⟨?_, hcap⟩
    rw [hnum, hlast]
    exact Nat.lt_succ_self _

theorem Handling.current {c : Completion} {answer : Except StylingError Nat × Editor}
    (h : Handling e c answer) {r : Request} (hr : answer.2.requests.current = some r) :
    e.requests.current = some r ∧ answer.2.caret = e.caret := by
  cases h with
  | passedOver => exact ⟨hr, rfl⟩
  | shown => cases hr
  | failed => cases hr

/-- A request that is current after a step was current before, or was made by the step. In the
former case the caret is where it was, if styles depend on it. -/
theorem Sound.current_step (h : e.Sound) (s : Step) {r : Request}
    (hr : (e.step s).requests.current = some r) :
    (e.requests.current = some r ∧
        (e.settings.caretSensitive = true → (e.step s).caret = e.caret)) ∨ e.Makes s r := by
  have houtcome : Outcome e (e.step s) → _ := fun ho =>
    (current_outcome ho hr).imp_right fun ⟨hfresh, hcap⟩ => (⟨hfresh, hr, hcap⟩ : e.Makes s r)
  cases s with
  | operation o =>
    rcases e.outcome_operate o with ⟨styles, rfl⟩ | ho
    · have hd := e.document_showStyles styles
      refine .inl ⟨?_, fun _ => congrArg Document.caret hd⟩
      rwa [← e.requests_showStyles styles]
    · exact houtcome ho
  | conclude number => exact .inl ⟨hr, fun _ => rfl⟩
  | arrive number => exact .inl ⟨hr, fun _ => rfl⟩
  | follow update => exact houtcome (e.outcome_followUpdate update)
  | followCaret offset => exact houtcome (e.outcome_followCaret offset)
  | receive =>
    simp only [Editor.step, receiveNext] at hr ⊢
    split at hr
    · exact .inl ⟨hr, fun _ => rfl⟩
    · rename_i c rest hq
      obtain ⟨hcur, hcaret⟩ := (h.handling hq).current hr
      exact .inl ⟨hcur, fun _ => hcaret⟩
  | mail inbox outbox => exact .inl ⟨hr, fun _ => rfl⟩

/-- The current request was made by one step of the run, and captured the caret that the editor
still has if styles depended on it at every move since. -/
theorem exists_makes (hs : e.Sound) (hw : e.WellPlaced) (hnone : e.requests.current = none)
    (steps : List Step) {r : Request} (hr : (e.run steps).requests.current = some r) :
    ∃ earlier s later, steps = earlier ++ s :: later ∧ (e.run earlier).Makes s r ∧
      (((e.run earlier).step s).CaretWatched later → r.snapshot.caret = (e.run steps).caret) := by
  -- Induction on the run from its end: the last step made the request, or it was current before.
  induction steps using List.reverseRecOn with
  | nil =>
    rw [show (e.run []).requests.current = none from hnone] at hr
    cases hr
  | append_singleton steps s ih =>
    have hrun : e.run (steps ++ [s]) = (e.run steps).step s := e.run_append steps [s]
    rw [hrun] at hr ⊢
    rcases (hs.run steps).current_step s hr with ⟨hcur, hcaret⟩ | hmakes
    · obtain ⟨earlier, made, later, hsplit, hmakes, hcap⟩ := ih hcur
      refine ⟨earlier, made, later ++ [s], by rw [hsplit]; simp, hmakes, fun hwatched => ?_⟩
      obtain ⟨hbefore, hlast, -⟩ := caretWatched_append hwatched
      have hmid : ((e.run earlier).step made).run later = e.run steps := by
        rw [hsplit, run_append, run_cons]
      rw [hmid] at hlast
      rw [hcap hbefore]
      by_cases hmoved : ((e.run steps).step s).caret = (e.run steps).caret
      · exact hmoved.symm
      · exact (hcaret (hlast hmoved)).symm
    · refine ⟨steps, s, [], rfl, hmakes, fun _ => ?_⟩
      rw [hmakes.captured]
      exact ((hw.run steps).step s).caret_snapshot

/-! ## What is shown -/

theorem shownRequests_outcome (ho : Outcome e e') : e'.shownRequests = e.shownRequests := by
  cases ho with
  | kept hk => exact hk.shown_eq
  | requested m hm he =>
    rw [he, shownRequests_requestStyles]
    exact hm.shown_eq

theorem Sound.shown_handling (h : e.Sound) {c : Completion}
    {answer : Except StylingError Nat × Editor} (hh : Handling e c answer) :
    answer.2.shownRequests = e.shownRequests ∨ ∃ r styles, e.Shows answer.2 r styles := by
  cases hh with
  | passedOver => exact .inl rfl
  | shown r styles hr hc hs =>
    have hd := h.describes r hr
    refine .inr ⟨r, styles, hr, (Request.result_eq_ok_iff hc).1 hs, rfl, ⟨rfl, rfl⟩, ?_, ?_⟩
    · exact (Request.length_of_result hc hs).trans hd.length_eq
    · exact hd.congr rfl rfl rfl rfl
  | failed => exact .inl rfl

/-- A step shows the styles of no request, or those of the current one, which describes the editor
before and after. -/
theorem Sound.shown_step (h : e.Sound) (s : Step) :
    (e.step s).shownRequests = e.shownRequests ∨ ∃ r styles, e.Shows (e.step s) r styles := by
  cases s with
  | operation o =>
    rcases e.outcome_operate o with ⟨styles, rfl⟩ | ho
    · exact .inl (e.shownRequests_showStyles styles)
    · exact .inl (shownRequests_outcome ho)
  | conclude number => exact .inl rfl
  | arrive number => exact .inl rfl
  | follow update => exact .inl (shownRequests_outcome (e.outcome_followUpdate update))
  | followCaret offset => exact .inl (shownRequests_outcome (e.outcome_followCaret offset))
  | receive =>
    simp only [Editor.step, receiveNext]
    split
    · exact .inl rfl
    · rename_i c rest hq
      have hl : (e.leaving rest).Sound := h.leaving hq
      rcases hl.shown_handling (h.handling hq) with hsame | ⟨r, styles, hsh⟩
      · exact .inl hsame
      · exact .inr ⟨r, styles, hsh.current, hsh.computed, hsh.announced, hsh.installed, hsh.covers,
          hsh.describes⟩
  | mail inbox outbox => exact .inl rfl

/-- In every run of a new editor, the current request describes the editor, and was made by one step
of the run, of the state then. The styles of a request are shown only while it is current; they are
the ones computed for it, and cover the text. Styles that are wanted are never dropped. Every action
is a run of steps, so all this holds in the midst of actions too. -/
theorem current_request_describes (text : String) (language : Language) (settings : Settings)
    (steps : List Step) :
    let start := new text language settings
    let e := start.run steps
    (∀ r, e.requests.current = some r →
      r.Describes e ∧
        ∃ earlier s later, steps = earlier ++ s :: later ∧ (start.run earlier).Makes s r ∧
          (((start.run earlier).step s).CaretWatched later → r.snapshot.caret = e.caret)) ∧
    (∀ s, (e.step s).shownRequests = e.shownRequests ∨ ∃ r styles, e.Shows (e.step s) r styles) ∧
    (∀ c rest d requests, e.requests.queue = c :: rest →
      (e.leaving rest).requests.judge c = (.ok (some d), requests) →
        ({ e.leaving rest with requests := requests }.showDelivery d).1 = .shown) ∧
    ∀ a : Action, ∃ more, e.act a = e.run more := by
  intro start e
  have hsound : start.Sound := sound_new text language settings
  have hplaced : start.WellPlaced := wellPlaced_new text language settings
  have hs : e.Sound := hsound.run steps
  refine ⟨fun r hr => ⟨hs.describes r hr, ?_⟩, hs.shown_step, ?_, e.exists_run_act⟩
  · exact exists_makes hsound hplaced rfl steps hr
  · intro c rest d requests hq hj
    exact hs.showDelivery_of_judge hq hj

end Highlight.Editor
