import Highlight.Proofs.Editor.Currency
import Highlight.Proofs.Editor.Following
import Highlight.Proofs.Editor.Requesting

/-!
# Languages without a pattern

Where the language has no pattern, an operation that asks for styles makes no request and withdraws
the one before, and the document is shown unstyled. Only if that changes what is shown, the styles do
not count as those of a request any more: plain styles that are there already stay what they are,
even if they came from a request. Of that it depends which styles an operation finds (`Finds`).

As long as there is no pattern nothing is current, so whatever arrives is passed over
(`Sound.idles_run`).

* `patternless_settles`: what holds after such an operation, and from then on.
-/

namespace Highlight.Editor

/-- The styles that an operation finds when it asks for others: those that were shown, which have
followed the text if it was changed. -/
inductive Finds (e : Editor) (o : Operation) : Spans → Prop where
  | kept (htext : (e.operate o).text = e.text) : Finds e o e.styles
  | spliced {start stop : Nat} {inserted : String} (hadmits : e.Admits o start stop inserted)
      (htext : (e.operate o).text ≠ e.text) :
      Finds e o (e.splicedStyles start stop inserted.length)

/-- On its way from `e` the operation asks for styles at `m`. -/
structure Asking (e : Editor) (o : Operation) (m : Editor) : Prop where
  result_eq : e.operate o = m.requestStyles
  source_eq : m.source = e.source
  finds : e.Finds o m.styles

/-- Meanwhile no request was made, none had its styles shown, and the styles that are shown count as
those of the same request as before, if they count as those of one. -/
structure Idles (e e' : Editor) : Prop where
  lastNumber_eq : e'.requests.lastNumber = e.requests.lastNumber
  shown_eq : e'.shownRequests = e.shownRequests
  source_eq : e'.source = none ∨ e'.source = e.source

variable {e m e' : Editor} {o : Operation} {start stop : Nat} {inserted : String}

/-! ## Asking for styles -/

/-- Where there is no pattern, only styles that are not plain are taken away. -/
theorem source_requestStyles (hp : m.language.pattern = none) :
    m.requestStyles.source = if m.styles.isPlain then m.source else none := by
  by_cases hplain : m.styles.isPlain = true <;> simp [requestStyles, hp, hplain, announce]

theorem styles_requestStyles (hp : m.language.pattern = none)
    (hcovers : m.requestStyles.styles.length = m.requestStyles.length) :
    m.requestStyles.styles = .plain m.requestStyles.length := by
  rcases m.requestStyles_cases with ⟨hsome, -⟩ | ⟨-, hplain, he⟩ | ⟨-, he⟩
  · rw [hp] at hsome
    cases hsome
  · rw [← hcovers, he]
    exact Spans.eq_plain_of_isPlain hplain
  · rw [he]
    rfl

/-- The caret was put somewhere in the same text, and styles were asked for. -/
theorem exists_asking_placeCaret (h : Kept e m) (hc : m.caret = e.caret)
    (hs : m.settings = e.settings) {target : Nat}
    (hdue : e.Unsettles ((m.placeCaret target).restyle false (m.caret != target))) :
    ∃ m', Kept e m' ∧
      (m.placeCaret target).restyle false (m.caret != target) = m'.requestStyles := by
  have hkept := h.trans (m.kept_placeCaret target)
  rw [restyle_placeCaret] at hdue ⊢
  split at hdue
  · next hmoved => exact ⟨m.placeCaret target, hkept, if_pos hmoved⟩
  · next hstays =>
    rcases hdue with htext | ⟨hne, hsens⟩
    · exact absurd hkept.text_eq htext
    · rw [caret_placeCaret, ← hc] at hne
      exact absurd (.inr ⟨hne.symm, hs ▸ hsens⟩) hstays

/-- The text is the same and so are the styles, up to where others are asked for. -/
theorem asking_of_eq (h : e.operate o = m.requestStyles) (htext : m.text = e.text)
    (hstyles : m.styles = e.styles) (hsource : m.source = e.source) : e.Asking o m := by
  refine ⟨h, hsource, hstyles ▸ .kept ?_⟩
  rw [h, text_requestStyles, htext]

/-- An edit asks for styles once it has put its text and the caret where they belong. -/
theorem Admits.exists_asking (h : e.Admits o start stop inserted)
    (hdue : e.Unsettles (e.operate o)) :
    ∃ m, e.Asking o m := by
  by_cases hsame : e.replaced start stop inserted = e.text
  · have hch : e.changes start stop inserted = false := by
      rw [← Bool.not_eq_true, changes_iff h.within.1]
      exact not_not_intro hsame
    have hedited : e.operate o = (e.placeCaret (start + inserted.length)).restyle false
        (e.caret != start + inserted.length) := by
      rw [operate_eq, h.attempt_eq, edit, if_pos h.within, hch]
      rfl
    rw [hedited] at hdue
    obtain ⟨m, hkept, hm⟩ := exists_asking_placeCaret (.refl e) rfl rfl hdue
    exact ⟨m, asking_of_eq (hedited.trans hm) hkept.text_eq hkept.styles_eq hkept.source_eq⟩
  · have hkept := kept_placeCaret (e.changeText start stop inserted) (start + inserted.length)
    have hprepared := e.prepared_changeText start stop inserted
    have hedited : e.operate o = ((e.changeText start stop inserted).placeCaret
        (start + inserted.length)).requestStyles := by
      rw [operate_eq, h.attempt_eq, edit_of_changes h.within hsame, unlessRefused]
    refine ⟨_, hedited, hkept.source_eq.trans hprepared.source_eq, ?_⟩
    rw [hkept.styles_eq, styles_changeText]
    refine .spliced h ?_
    rw [hedited, text_requestStyles, hkept.text_eq, changeText_eq]
    exact hsame

theorem exists_asking_selectRange (h : e.operate o = e.selectRange start stop)
    (hdue : e.Unsettles (e.operate o)) :
    ∃ m, e.Asking o m := by
  rw [h] at hdue
  obtain ⟨m, hkept, hm⟩ := exists_asking_placeCaret (e.kept_placeSelection _)
    (e.caret_placeSelection _) (e.settings_placeSelection _) hdue
  exact ⟨m, asking_of_eq (h.trans hm) hkept.text_eq hkept.styles_eq hkept.source_eq⟩

theorem not_unsettles_of_eq (htext : e'.text = e.text) (hcaret : e'.caret = e.caret) :
    ¬e.Unsettles e' := by
  rintro (hne | ⟨hne, -⟩)
  · exact hne htext
  · exact hne hcaret

/-- An operation that has to ask for styles does so. -/
theorem Due.exists_asking (hdue : e.Due o) : ∃ m, e.Asking o m := by
  obtain ⟨hok, hasks⟩ := hdue
  cases hattempt : e.attempt o with
  | error r =>
    rw [hattempt] at hok
    cases hok
  | ok e' =>
    have hresult : e.operate o = e' := by
      rw [operate_eq, hattempt, unlessRefused]
    have hunsettles : o.asks = false → e.Unsettles (e.operate o) := fun ho =>
      hasks.resolve_left (by simp [ho])
    cases o with
    | setCaret offset =>
      obtain ⟨-, rfl⟩ := setCaret_eq_ok_iff.1 hattempt
      exact exists_asking_selectRange hresult (hunsettles rfl)
    | select start stop =>
      obtain ⟨-, rfl⟩ := select_eq_ok_iff.1 hattempt
      exact exists_asking_selectRange hresult (hunsettles rfl)
    | setEditable value => exact absurd (hunsettles rfl) (not_unsettles_of_eq rfl rfl)
    | setCaretSensitive value => exact absurd (hunsettles rfl) (not_unsettles_of_eq rfl rfl)
    | setLanguage language => exact ⟨_, asking_of_eq rfl rfl rfl rfl⟩
    | setExtensions extensions => exact ⟨_, asking_of_eq rfl rfl rfl rfl⟩
    | addExtension c => exact ⟨_, asking_of_eq rfl rfl rfl rfl⟩
    | requestStyles => exact ⟨e, asking_of_eq rfl rfl rfl rfl⟩
    | showStyles styles =>
      have hdocument := e.document_showStyles styles
      exact absurd (hunsettles rfl) (not_unsettles_of_eq (congrArg Document.text hdocument)
        (congrArg Document.caret hdocument))
    | _ =>
      obtain ⟨start, stop, inserted, hadmits⟩ := exists_admits hattempt rfl
      exact hadmits.exists_asking (hunsettles rfl)

/-! ## As long as there is no pattern -/

theorem Idles.refl (e : Editor) : e.Idles e := ⟨rfl, rfl, .inr rfl⟩

theorem Idles.trans (h : e.Idles m) (h' : m.Idles e') : e.Idles e' where
  lastNumber_eq := h'.lastNumber_eq.trans h.lastNumber_eq
  shown_eq := h'.shown_eq.trans h.shown_eq
  source_eq := h'.source_eq.elim .inl fun hsame => h.source_eq.imp hsame.trans hsame.trans

theorem idles_showStyles (e : Editor) (styles : Spans) : e.Idles (e.showStyles styles).2 := by
  refine ⟨by rw [requests_showStyles], e.shownRequests_showStyles styles, ?_⟩
  unfold showStyles
  split
  · exact .inl rfl
  · exact .inr rfl

/-- Where no pattern is left, no request was made. -/
theorem idles_of_outcome (ho : Outcome e e') (hw : e'.WellPlaced)
    (hnone : e'.requests.current = none) : e.Idles e' := by
  rcases outcome_cases ho hw with ⟨hkept, -⟩ | hrenewed | hcleared
  · exact ⟨by rw [hkept.requests_eq], hkept.shown_eq, .inr hkept.source_eq⟩
  · cases hnone.symm.trans hrenewed.current
  · exact ⟨hcleared.number_eq, shownRequests_outcome ho, hcleared.source_eq⟩

theorem Sound.idles_step (h : e.Sound) (hw : e.WellPlaced) (hp : e.language.pattern = none)
    (s : Step) (hp' : (e.step s).language.pattern = none) : e.Idles (e.step s) := by
  have houtcome : Outcome e (e.step s) → e.Idles (e.step s) := fun ho =>
    idles_of_outcome ho (hw.step s) ((h.step s).current_of_pattern hp')
  cases s with
  | operation o =>
    rcases e.outcome_operate o with ⟨styles, rfl⟩ | ho
    · exact e.idles_showStyles styles
    · exact houtcome ho
  | conclude number => exact ⟨rfl, rfl, .inr rfl⟩
  | arrive number => exact ⟨rfl, rfl, .inr rfl⟩
  | follow update => exact houtcome (e.outcome_followUpdate update)
  | followCaret offset => exact houtcome (e.outcome_followCaret offset)
  | receive =>
    simp only [Editor.step, receiveNext]
    split
    · exact .refl e
    · next c rest hq =>
      have hhandling := h.handling hq
      generalize (e.leaving rest).handle c = answer at hhandling ⊢
      have hcurrent : e.requests.current = none := h.current_of_pattern hp
      cases hhandling with
      | passedOver => exact ⟨rfl, rfl, .inr rfl⟩
      | shown r styles hr => cases hcurrent.symm.trans hr
      | failed r error hr => cases hcurrent.symm.trans hr
  | mail inbox outbox => exact ⟨rfl, rfl, .inr rfl⟩

/-- Whatever arrives as long as there is no pattern, it is passed over. -/
theorem Sound.idles_run (h : e.Sound) (hw : e.WellPlaced) (steps : List Step)
    (hp : ∀ earlier, earlier <+: steps → (e.run earlier).language.pattern = none) :
    e.Idles (e.run steps) := by
  induction steps generalizing e with
  | nil => exact .refl e
  | cons s steps ih =>
    have hfirst := hp [] (List.nil_prefix)
    have hnext := hp [s] (List.prefix_append [s] steps)
    refine (h.idles_step hw hfirst s hnext).trans
      (ih (h.step s) (hw.step s) fun earlier hearlier => ?_)
    exact hp (s :: earlier) (List.prefix_cons_inj s |>.2 hearlier)

theorem shownRequests_operate (e : Editor) (o : Operation) :
    (e.operate o).shownRequests = e.shownRequests := by
  rcases e.outcome_operate o with ⟨styles, rfl⟩ | ho
  · exact e.shownRequests_showStyles styles
  · exact shownRequests_outcome ho

theorem Sound.isIdle_of_pattern (h : e.Sound) (hp : e.language.pattern = none) :
    e.requests.isIdle = true := by
  rw [Requests.isIdle, h.current_of_pattern hp]
  rfl

/-- An operation that has to ask for styles, in a language without a pattern: it makes no request and
leaves none current, and the document is shown unstyled. The styles count as those of no request if
the operation found other ones than plain ones, and else as those of the same request as before. As
long as there is no pattern, whatever happens, no request is made or current, the styles of none are
shown, and those that are shown count as those of no other request. -/
theorem patternless_settles (text : String) (language : Language) (settings : Settings)
    (steps : List Step) {o : Operation} (hdue : ((new text language settings).run steps).Due o)
    (hp : (((new text language settings).run steps).operate o).language.pattern = none) :
    let e := (new text language settings).run steps
    let e' := e.operate o
    e'.requests.working = e.requests.working ∧
      e'.requests.lastNumber = e.requests.lastNumber ∧ e'.requests.isIdle ∧
      e'.styles = .plain e'.length ∧
      (∃ found, e.Finds o found ∧ e'.source = if found.isPlain then e.source else none) ∧
      ∀ more, (∀ earlier, earlier <+: more → (e'.run earlier).language.pattern = none) →
        (e'.run more).requests.isIdle ∧
          (e'.run more).requests.lastNumber = e.requests.lastNumber ∧
          (e'.run more).shownRequests = e.shownRequests ∧
          ((e'.run more).source = none ∨ (e'.run more).source = e'.source) := by
  intro e e'
  have hs : e'.Sound := ((sound_new text language settings).run steps).operate o
  have hw : e'.WellPlaced := ((wellPlaced_new text language settings).run steps).operate o
  have hissues : e.Issues e' [] := (e.asked_operate o).withdrawn hdue hp
  obtain ⟨m, hm⟩ : ∃ m, e.Asking o m := hdue.exists_asking
  have hresult : e' = m.requestStyles := hm.result_eq
  have hpattern : m.language.pattern = none := by
    rw [← language_requestStyles, ← hresult]
    exact hp
  refine ⟨hissues.working_eq.trans (List.append_nil _), hissues.lastNumber_eq,
    hs.isIdle_of_pattern hp, ?_, ⟨m.styles, hm.finds, ?_⟩, fun more hmore => ?_⟩
  · have hcovers := hw.covers
    rw [hresult] at hcovers ⊢
    exact styles_requestStyles hpattern hcovers
  · rw [hresult, source_requestStyles hpattern, hm.source_eq]
  · have hidles := hs.idles_run hw more hmore
    exact ⟨(hs.run more).isIdle_of_pattern (hmore more (List.prefix_refl more)),
      hidles.lastNumber_eq.trans hissues.lastNumber_eq,
      hidles.shown_eq.trans (e.shownRequests_operate o), hidles.source_eq⟩

/-- The styles of one request are shown and those of another one are on their way when the language
is changed; they arrive later. -/
theorem patternless_settles_late :
    let everywhere : Contributor := .ofSpans "all" fun s => .ok (.labeled s.length "text")
    let language := Language.ofPattern "x" (some ⟨"x", .text ['x'], []⟩) [everywhere]
    let e := (new "ax" language .standard).run [.operation .requestStyles, .conclude 1, .arrive 1,
      .receive, .operation (.insert 0 "b"), .conclude 2]
    let e' := e.operate (.setLanguage .plainText)
    let later := e'.run [.arrive 2, .receive]
    e.source = some 1 ∧ e'.styles = .plain 3 ∧ e'.source = none ∧
      (e'.run [.arrive 2]).requests.queue.length = 1 ∧ later.requests.isIdle ∧
      later.requests.lastNumber = 2 ∧ later.shownRequests = [1] ∧ later.source = none := by
  intro everywhere language e e' later
  have hpattern : ∀ {f : Editor}, f.language.pattern.isNone → f.language.pattern = none :=
    Option.isNone_iff_eq_none.1
  obtain ⟨-, -, -, hstyles, ⟨found, hfinds, hsource⟩, hlater⟩ :=
    patternless_settles "ax" language .standard _ (o := .setLanguage .plainText)
      (⟨rfl, .inl rfl⟩ : e.Due (.setLanguage .plainText)) (hpattern (by decide +kernel))
  have hnone : e'.source = none := by
    cases hfinds with
    | kept =>
      have hlabelled : e.styles.isPlain = false := by decide +kernel
      exact hsource.trans (by simp [e, hlabelled])
    | spliced hadmits => cases hadmits
  obtain ⟨hidle, hnumber, hshown, hsame⟩ := hlater [.arrive 2, .receive] fun earlier hearlier => by
    simp only [List.prefix_cons_iff, List.prefix_nil] at hearlier
    rcases hearlier with rfl | ⟨_, rfl, rfl | ⟨_, rfl, rfl⟩⟩ <;> exact hpattern (by decide +kernel)
  have hlength : e'.length = 3 := by decide +kernel
  have hissued : e.requests.lastNumber = 2 := by decide +kernel
  have hshownBefore : e.shownRequests = [1] := by decide +kernel
  refine ⟨by decide +kernel, hlength ▸ hstyles, hnone, by decide +kernel, hidle, ?_, ?_, ?_⟩
  · simp only [later, e', e, hnumber, hissued]
  · simp only [later, e', e, hshown, hshownBefore]
  · exact hsame.elim id (·.trans hnone)

/-- The result of a request had no labels. The document is shown unstyled afterwards, and still the
styles count as those of the request. -/
theorem source_outlives_pattern :
    let language := Language.ofPattern "x" (some ⟨"x", .text ['x'], []⟩) []
    let e := (new "ab" language .standard).run
      [.operation .requestStyles, .conclude 1, .arrive 1, .receive]
    let e' := e.operate (.setLanguage .plainText)
    e.Due (.setLanguage .plainText) ∧ e'.language.pattern = none ∧ e'.source = some 1 := by
  intro language e e'
  exact ⟨⟨rfl, .inl rfl⟩, Option.isNone_iff_eq_none.1 (by decide +kernel), by decide +kernel⟩

end Highlight.Editor
