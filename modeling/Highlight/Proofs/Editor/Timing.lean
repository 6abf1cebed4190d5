import Highlight.Proofs.Editor.Arrivals
import Highlight.Proofs.Editor.Following

/-!
# What does not depend on when workers finish

Two runs of an unlinked editor with the same operations end with the same document, however the
completions came in between. After a wait that lets the worker of the current request come to its
end nothing is current any more (`Follows.current_awaitStyles`), and then the styles are those of
the last request, or there were none to ask for (`timing_independent`).
-/

namespace Highlight.Editor

variable {e f a b : Editor} {last : Option Request}

/-! ## Waiting -/

/-- Handling completions settles the current request, or its completion was not among them. -/
theorem Sound.current_receiveFrom {queue : List Completion} (h : e.Sound)
    (hq : e.requests.queue = queue) (shown : Nat) :
    (e.receiveFrom shown queue).2.requests.current = none ∨
      (e.receiveFrom shown queue).2.requests.current = e.requests.current ∧
        (∃ n, (e.receiveFrom shown queue).1 = .ok n) ∧
        ∀ c ∈ queue, e.requests.running ≠ some c.number := by
  have hattended := h.attended_receiveFrom hq shown
  generalize e.receiveFrom shown queue = answer at hattended ⊢
  cases hattended with
  | passedOver requests hcur hn => exact .inr ⟨hcur, ⟨shown, rfl⟩, hn⟩
  | shown => exact .inl rfl
  | failed => exact .inl rfl

theorem current_finish (e : Editor) : e.finish.requests.current = e.requests.current := by
  unfold finish Requests.finish
  split <;> rfl

/-- After a wait nothing is current, if the worker of the last request sends its completion. -/
theorem Follows.current_awaitStyles (h : Follows last e f)
    (hc : ∀ r, f.requests.current = some r → ∃ c, r.completion? = some c) :
    e.awaitStyles.2.requests.current = none := by
  have hcatch := h.catchUp
  have hsettles := h.regular.sound.current_receiveFrom rfl 0
  have hreceive : e.catchUp = e.receiveFrom 0 e.requests.queue := by
    unfold Editor.catchUp
    rw [followInbox_of_empty h.regular.inbox_eq]
    rfl
  rw [← hreceive] at hsettles
  unfold Editor.awaitStyles
  split
  · rename_i error after he
    rw [he] at hsettles
    rcases hsettles with hnone | ⟨-, ⟨n, hok⟩, -⟩
    · exact hnone
    · cases hok
  · rename_i shown after he
    rw [he] at hcatch
    cases hr : after.requests.current with
    | none =>
      rw [if_pos (by rw [Requests.isIdle, hr]; rfl)]
      exact hr
    | some r =>
      rw [if_neg (by rw [Requests.isIdle, hr]; exact Bool.false_ne_true)]
      obtain ⟨c, hrc⟩ := hc r (hcatch.current_eq hr)
      have hmem : c ∈ after.finish.requests.queue :=
        hcatch.regular.awaited.mem_queue_finish hcatch.regular.sound.coherent hr hrc
      refine (hcatch.finish.regular.sound.current_receiveFrom rfl shown).elim id ?_
      rintro ⟨-, -, hall⟩
      refine absurd ?_ (hall c hmem)
      rw [Requests.running, current_finish, hr, (Request.completion?_fields hrc).1]
      rfl

/-! ## Two runs -/

/-- The last request has styles, or nothing is current in the reference run. -/
def Fulfilled (f : Editor) : Prop :=
  ∀ r, f.requests.current = some r → ∃ styles, r.compute.result = .ok (.ok styles)

/-- Two runs that follow the same operations and have nothing current show the same styles. -/
theorem Follows.styles_eq (ha : Follows last a f) {last' : Option Request}
    (hb : Follows last' b f) (hf : f.Fulfilled) (hanone : a.requests.current = none)
    (hbnone : b.requests.current = none) :
    a.styles = b.styles ∧ (a.language.pattern.isSome → a.source = b.source) := by
  have hdoc : a.document = b.document := ha.document_eq.trans hb.document_eq.symm
  cases hr : f.requests.current with
  | none =>
    have hua := ha.unstyled hr
    have hub := hb.unstyled hr
    have hlen : a.length = b.length := congrArg (fun d => d.text.length) hdoc
    have hlang : a.language = b.language := congrArg Document.language hdoc
    refine ⟨?_, fun hp => ?_⟩
    · rw [hua.styles_eq, hub.styles_eq, hlen]
    · rw [hua.source_eq hp, hub.source_eq (hlang ▸ hp)]
  | some r =>
    obtain ⟨styles, hs⟩ := hf r hr
    have hsettled : ∀ {e : Editor} {last : Option Request}, Follows last e f →
        e.requests.current = none → e.styles = styles ∧ e.source = some r.number := by
      intro e last h hnone
      rcases h.requested r hr with hcur | hset
      · rw [hnone] at hcur
        cases hcur
      · exact hset.shows styles hs
    obtain ⟨hsa, hna⟩ := hsettled ha hanone
    obtain ⟨hsb, hnb⟩ := hsettled hb hbnone
    exact ⟨hsa.trans hsb.symm, fun _ => hna.trans hnb.symm⟩

/-- The reference run is fulfilled if there is no pattern, if nothing was requested, or if the last
request has styles. -/
theorem Follows.fulfilled (h : Follows last a f)
    (hlast : a.language.pattern = none ∨ a.requests.last? = none ∨
      ∃ r styles, last = some r ∧ r.compute.result = .ok (.ok styles)) : f.Fulfilled := by
  intro r hr
  have hsound := h.reference.sound
  rcases hlast with hp | hnum | ⟨q, styles, hq, hs⟩
  · have hlang : a.language = f.language := congrArg Document.language h.document_eq
    rw [hsound.current_of_pattern (hlang ▸ hp)] at hr
    cases hr
  · have hsame : a.requests.lastNumber = f.requests.lastNumber :=
      congrArg Document.lastNumber h.document_eq
    have hzero : a.requests.lastNumber = 0 := by
      unfold Requests.last? at hnum
      split at hnum
      · assumption
      · cases hnum
    have hpos := hsound.coherent.number_pos r hr
    rw [hsound.coherent.number_eq r hr, ← hsame, hzero] at hpos
    exact absurd hpos (Nat.lt_irrefl 0)
  · rw [h.last_eq r hr] at hq
    cases hq
    exact ⟨styles, hs⟩

/-- Two runs of a new, unlinked editor with the same operations, none of which shows styles from
elsewhere, and each followed by a wait: they end with the same document and the same last request;
nothing is current any more, if no contributor cancels the request it works for; and the styles and
their source are the same, unless the last request failed. -/
theorem timing_independent (text : String) (language : Language) (settings : Settings)
    (first second : List Action) (hsame : operationsOf second = operationsOf first)
    (hown : ∀ o ∈ operationsOf first, ∀ styles, o ≠ .showStyles styles) :
    let start := new text language settings
    let a := (start.live first).awaitStyles.2
    let b := (start.live second).awaitStyles.2
    (a.text = b.text ∧ a.caret = b.caret ∧ a.selection = b.selection ∧ a.version = b.version ∧
      a.language = b.language ∧ a.requests.last? = b.requests.last?) ∧
    ((∀ c ∈ a.language.contributors ++ a.requests.extensions, c.Detached) →
      a.requests.isIdle ∧ b.requests.isIdle) ∧
    (a.language.pattern = none ∨ a.requests.last? = none ∨
        (∃ r styles, start.lastRequest none first = some r ∧ r.compute.result = .ok (.ok styles)) →
      a.styles = b.styles ∧ (a.language.pattern.isSome → a.source = b.source)) := by
  intro start a b
  have hfirst := (follows_new text language settings).live hown
  have hsecond := (follows_new text language settings).live (hsame ▸ hown)
  rw [hsame] at hsecond
  generalize (operationsOf first).foldl Editor.operate (new text language settings) = f
    at hfirst hsecond
  have ha : Follows _ a f := hfirst.awaitStyles
  have hb : Follows _ b f := hsecond.awaitStyles
  have hdoc : a.document = b.document := ha.document_eq.trans hb.document_eq.symm
  refine ⟨⟨congrArg Document.text hdoc, congrArg Document.caret hdoc,
    congrArg Document.selection hdoc, congrArg Document.version hdoc,
    congrArg Document.language hdoc, ?_⟩, ?_, ?_⟩
  · have hnum : a.requests.lastNumber = b.requests.lastNumber :=
      congrArg Document.lastNumber hdoc
    rw [Requests.last?, Requests.last?, hnum]
  · intro hdetached
    -- The last request captured the language and the extensions that are there now.
    have hsends : ∀ r, f.requests.current = some r → ∃ c, r.completion? = some c := by
      intro r hr
      have hd := ha.reference.sound.describes r hr
      refine Request.exists_completion_of_detached fun c hc => hdetached c ?_
      rw [hd.language_eq, hd.extensions_eq] at hc
      rwa [show a.language = f.language from congrArg Document.language ha.document_eq,
        show a.requests.extensions = f.requests.extensions from
          congrArg Document.extensions ha.document_eq]
    have hanone := hfirst.current_awaitStyles hsends
    have hbnone := hsecond.current_awaitStyles hsends
    exact ⟨congrArg Option.isNone hanone, congrArg Option.isNone hbnone⟩
  · intro hlast
    have hful := ha.fulfilled hlast
    have hsends : ∀ r, f.requests.current = some r → ∃ c, r.completion? = some c := by
      intro r hr
      obtain ⟨styles, hs⟩ := hful r hr
      exact Request.exists_completion hs
    exact ha.styles_eq hb hful (hfirst.current_awaitStyles hsends)
      (hsecond.current_awaitStyles hsends)

/-- Two inserts, where the styles of the first one are shown in between, or never. -/
theorem timing_independent_two_inserts :
    ∃ language first second, operationsOf second = operationsOf first ∧
      (∀ o ∈ operationsOf first, ∀ styles, o ≠ .showStyles styles) ∧
      ((new "" language .standard).live first).shownRequests = [1] ∧
      ((new "" language .standard).live second).shownRequests = [] ∧
      ((new "" language .standard).live first).awaitStyles.2.styles =
        ((new "" language .standard).live second).awaitStyles.2.styles := by
  refine ⟨{ Language.ofPattern "x" (some ⟨"x", .text ['x'], []⟩) [] with labelling := .matchedText },
    [.operation (.insert 0 "x"), .conclude 1, .arrive 1, .catchUp, .operation (.insert 1 "y")],
    [.operation (.insert 0 "x"), .operation (.insert 1 "y"), .conclude 1, .arrive 2],
    rfl, ?_, by decide +kernel, by decide +kernel, ?_⟩
  · simp [operationsOf]
  · have h := timing_independent ""
      { Language.ofPattern "x" (some ⟨"x", .text ['x'], []⟩) [] with labelling := .matchedText }
      .standard
      [.operation (.insert 0 "x"), .conclude 1, .arrive 1, .catchUp, .operation (.insert 1 "y")]
      [.operation (.insert 0 "x"), .operation (.insert 1 "y"), .conclude 1, .arrive 2]
      rfl (by simp [operationsOf])
    exact (h.2.2 (.inr (.inr ⟨_, _, rfl, rfl⟩))).1

end Highlight.Editor
