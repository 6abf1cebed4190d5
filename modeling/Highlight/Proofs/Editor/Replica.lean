import Mathlib.Algebra.Ring.Int.Defs
import Highlight.Proofs.Editor.Placement

/-!
# What subscribers know

A subscriber that hears everything an editor tells from the start, and looks at the styles whenever
it is told that styles were shown, knows the length of the text, the caret, the selection, the
version, the name of the language, the styles and where they come from, without ever looking at the
editor (`Replica`). Nothing is told twice: a replica would not accept a move of the caret to where it
is, a selection that is selected already, or a version other than the next (`Replica.hear`).

* `Reports.step`: what a step tells leads a replica of the editor to a replica of what it became;
* `foldlM_heard`: the same of a run;
* `replica_of_heard`: a new editor in any run, event by event and field by field.
-/

namespace Highlight

/-- What a subscriber knows of an editor. -/
structure Replica where
  length : Int
  caret : Nat
  selection : Option TextRange
  version : Nat
  languageName : String
  styles : Spans
  source : Option RequestNumber

/-! ## Events -/

namespace Event

/-- Where the caret was moved. -/
def caret? : Event → Option Nat
  | caretMoved offset => some offset
  | _ => none

/-- What was selected. -/
def selection? : Event → Option (Option TextRange)
  | selectionChanged selection => some selection
  | _ => none

/-- The version that a change of the text led to. -/
def version? : Event → Option Nat
  | textChanged _ _ _ version => some version
  | _ => none

/-- The name of the new language. -/
def languageName? : Event → Option String
  | languageChanged name => some name
  | _ => none

/-- Where the styles come from that are shown. -/
def source? : Event → Option (Option RequestNumber)
  | stylesShown request => some request
  | _ => none

/-- By how many characters the text grew. -/
def gain : Event → Int
  | textChanged _ removed inserted _ => inserted - removed
  | _ => 0

end Event

namespace Replica

/-- The replica after an event; beside it stand the styles that are shown, which only matter where
the event says that there are new ones. An event that tells nothing new, or that does not fit, is not
accepted. -/
def hear (r : Replica) : Event × Spans → Option Replica
  | (.textChanged start removed inserted version, _) =>
    match r.styles.splice start (start + removed) inserted with
    | .ok (.ok styles) =>
      if version = r.version + 1 then
        some { r with
          length := r.length + (inserted - removed)
          version := version
          styles := styles }
      else none
    | _ => none
  | (.caretMoved offset, _) => if r.caret = offset then none else some { r with caret := offset }
  | (.selectionChanged selection, _) =>
    if r.selection = selection then none else some { r with selection := selection }
  | (.languageChanged name, _) => some { r with languageName := name }
  | (.stylesShown request, shown) => some { r with styles := shown, source := request }

variable {r r' : Replica} {told : List (Event × Spans)}

/-- A text is only changed to the next version, and never beyond its end. -/
theorem hear_textChanged {start removed inserted version : Nat} {shown : Spans}
    (h : r.hear (.textChanged start removed inserted version, shown) = some r') :
    ∃ styles, r.styles.splice start (start + removed) inserted = .ok (.ok styles) ∧
      version = r.version + 1 ∧
      r' = { r with
        length := r.length + (inserted - removed)
        version := version
        styles := styles } := by
  simp only [hear] at h
  split at h
  · rename_i styles hs
    split at h
    · rename_i hv
      cases h
      exact ⟨styles, hs, hv, rfl⟩
    · cases h
  · cases h

/-- What an event does to each field but the styles. -/
structure Hears (event : Event) (r r' : Replica) : Prop where
  caret_eq : r'.caret = event.caret?.getD r.caret
  selection_eq : r'.selection = event.selection?.getD r.selection
  version_eq : r'.version = event.version?.getD r.version
  counted : r'.version = r.version + [event].countP (·.version?.isSome)
  languageName_eq : r'.languageName = event.languageName?.getD r.languageName
  source_eq : r'.source = event.source?.getD r.source
  length_eq : r'.length = r.length + event.gain

theorem hears_of_hear {event : Event} {shown : Spans} (h : r.hear (event, shown) = some r') :
    Hears event r r' := by
  cases event with
  | textChanged start removed inserted version =>
    obtain ⟨styles, -, hversion, rfl⟩ := hear_textChanged h
    exact ⟨rfl, rfl, rfl, hversion, rfl, rfl, rfl⟩
  | caretMoved offset =>
    simp only [hear] at h
    split at h <;> cases h
    exact ⟨rfl, rfl, rfl, rfl, rfl, rfl, (add_zero _).symm⟩
  | selectionChanged selection =>
    simp only [hear] at h
    split at h <;> cases h
    exact ⟨rfl, rfl, rfl, rfl, rfl, rfl, (add_zero _).symm⟩
  | languageChanged name =>
    cases h
    exact ⟨rfl, rfl, rfl, rfl, rfl, rfl, (add_zero _).symm⟩
  | stylesShown request =>
    cases h
    exact ⟨rfl, rfl, rfl, rfl, rfl, rfl, (add_zero _).symm⟩

/-- A field that some events set is what the last of them said. -/
theorem eq_last_of_foldlM {α : Type} (get : Replica → α) (last? : Event → Option α)
    (hhear : ∀ {r r' event shown}, r.hear (event, shown) = some r' →
      get r' = (last? event).getD (get r))
    (h : told.foldlM hear r = some r') :
    get r' = ((told.map Prod.fst).reverse.findSome? last?).getD (get r) := by
  induction told generalizing r with
  | nil =>
    cases h
    rfl
  | cons x told ih =>
    rw [List.foldlM_cons] at h
    obtain ⟨m, hm, hrest⟩ := Option.bind_eq_some_iff.1 h
    rw [ih hrest, hhear hm, List.map_cons, List.reverse_cons, List.findSome?_append, Option.getD_or,
      List.findSome?_singleton]

/-- The versions count the changes of the text, which add up to its length. -/
theorem eq_total_of_foldlM (h : told.foldlM hear r = some r') :
    r'.version = r.version + (told.map Prod.fst).countP (·.version?.isSome) ∧
      r'.length = r.length + ((told.map Prod.fst).map Event.gain).sum := by
  induction told generalizing r with
  | nil =>
    cases h
    exact ⟨rfl, (add_zero _).symm⟩
  | cons x told ih =>
    rw [List.foldlM_cons] at h
    obtain ⟨m, hm, hrest⟩ := Option.bind_eq_some_iff.1 h
    obtain ⟨hversion, hlength⟩ := ih hrest
    have hx := hears_of_hear hm
    refine ⟨?_, ?_⟩
    · rw [hversion, hx.counted, Nat.add_assoc, ← List.countP_append]
      rfl
    · rw [hlength, hx.length_eq, List.map_cons, List.map_cons, List.sum_cons, add_assoc]

end Replica

namespace Editor

/-- What a subscriber should know of the editor. -/
def replica (e : Editor) : Replica :=
  ⟨e.length, e.caret, e.selection, e.version, e.language.name, e.styles, e.source⟩

/-- What a step tells, in order. -/
def tells (e : Editor) (s : Step) : List Event :=
  ((e.step s).events.take ((e.step s).events.length - e.events.length)).reverse

/-- What is told in a run, in order, each time with the styles that are shown after the step. -/
def heard (e : Editor) : List Step → List (Event × Spans)
  | [] => []
  | s :: steps => (e.tells s).map (·, (e.step s).styles) ++ (e.step s).heard steps

/-- What was told on the way from `e` to `e'` leads a replica of `e` to one of `e'`, where `shown`
are the styles shown at the end. -/
def Reports (shown : Spans) (e e' : Editor) : Prop :=
  ∃ news : List Event, e'.events = news.reverse ++ e.events ∧
    (news.map (·, shown)).foldlM Replica.hear e.replica = some e'.replica

variable {e e' m : Editor} {shown : Spans}

theorem Reports.refl (e : Editor) : Reports shown e e := ⟨[], rfl, rfl⟩

theorem Reports.trans (h : Reports shown e m) (h' : Reports shown m e') : Reports shown e e' := by
  obtain ⟨first, hfirst, hm⟩ := h
  obtain ⟨second, hsecond, he'⟩ := h'
  refine ⟨first ++ second, ?_, ?_⟩
  · rw [hsecond, hfirst, List.reverse_append, List.append_assoc]
  · rw [List.map_append, List.foldlM_append, hm]
    exact he'

/-- Nothing needs to be told about what no subscriber knows. -/
theorem reports_of_eq (hevents : e'.events = e.events) (hreplica : e'.replica = e.replica) :
    Reports shown e e' :=
  ⟨[], hevents, congrArg some hreplica.symm⟩

theorem reports_of_hear {event : Event} (hevents : e'.events = event :: e.events)
    (hhear : e.replica.hear (event, shown) = some e'.replica) : Reports shown e e' :=
  ⟨[event], hevents, by
    rw [List.map_singleton, List.foldlM_cons, hhear]
    rfl⟩

/-! ## Parts of operations -/

theorem reports_placeSelection (e : Editor) (selection : Option TextRange) :
    Reports shown e (e.placeSelection selection) := by
  unfold placeSelection
  split
  · exact .refl e
  · rename_i h
    exact reports_of_hear rfl (if_neg h)

theorem reports_placeCaret (e : Editor) (offset : Nat) : Reports shown e (e.placeCaret offset) := by
  unfold placeCaret
  split
  · exact .refl e
  · rename_i h
    exact reports_of_hear rfl (if_neg h)

theorem reports_requestStyles (e : Editor) : Reports e.requestStyles.styles e e.requestStyles := by
  rcases e.requestStyles_cases with ⟨-, he⟩ | ⟨-, -, he⟩ | ⟨-, he⟩
  · rw [he]
    exact reports_of_eq rfl rfl
  · rw [he]
    exact reports_of_eq rfl rfl
  · rw [he]
    exact reports_of_hear rfl rfl

theorem reports_restyle (e : Editor) (textChanged caretMoved : Bool) :
    Reports (e.restyle textChanged caretMoved).styles e (e.restyle textChanged caretMoved) := by
  unfold restyle
  split
  · exact e.reports_requestStyles
  · exact .refl e

theorem length_restyle (e : Editor) (textChanged caretMoved : Bool) :
    (e.restyle textChanged caretMoved).length = e.length := by
  unfold restyle
  split
  · exact congrArg String.length e.text_requestStyles
  · rfl

theorem replica_placeSelection (e : Editor) (selection : Option TextRange) :
    (e.placeSelection selection).replica = { e.replica with selection := selection } := by
  unfold placeSelection
  split
  · rename_i h
    rw [← h]
    rfl
  · rfl

theorem replica_changeText (e : Editor) (start stop : Nat) (new : String) :
    (e.changeText start stop new).replica = { e.replica with
      length := (e.replaced start stop new).length
      selection := none
      version := e.version + 1
      styles := e.splicedStyles start stop new.length } := by
  simp only [changeText]
  exact replica_placeSelection _ none

theorem events_changeText (e : Editor) (start stop : Nat) (new : String) :
    (e.changeText start stop new).events =
      .textChanged start (stop - start) new.length (e.version + 1) ::
        (e.placeSelection none).events := by
  simp only [changeText, announce, placeSelection, passOn]
  split <;> rfl

/-- That nothing is selected any more is told first, and then the change of the text. -/
theorem Fitting.reports_changeText (h : e.Fitting) {start stop : Nat} (new : String)
    (hle : start ≤ stop) (hstop : stop ≤ e.length)
    (hmax : (e.changeText start stop new).length ≤ maxLength) :
    Reports shown e (e.changeText start stop new) := by
  refine (e.reports_placeSelection none).trans
    (reports_of_hear (e.events_changeText start stop new) ?_)
  have htext : (e.changeText start stop new).length = (e.replaced start stop new).length :=
    congrArg (fun d => d.text.length) (e.document_changeText start stop new)
  have hlength := length_changeText new hle hstop
  obtain ⟨styles, hs⟩ := h.exists_splice hle hstop (hlength ▸ hmax)
  have hspliced : e.splicedStyles start stop new.length = styles := by rw [splicedStyles, hs]
  rw [replica_placeSelection, replica_changeText, hspliced, ← htext, hlength]
  simp only [Replica.hear, replica, Nat.add_sub_cancel' hle, hs, if_true]
  congr 2
  omega

/-! ## Operations -/

theorem reports_refused {x : Except Refusal Editor} (hmax : (e.unlessRefused x).length ≤ maxLength)
    (h : ∀ e', x = .ok e' → e'.length ≤ maxLength → Reports e'.styles e e') :
    Reports (e.unlessRefused x).styles e (e.unlessRefused x) := by
  cases x with
  | ok e' => exact h e' rfl hmax
  | error refusal => exact .refl e

theorem Fitting.reports_edit (h : e.Fitting) {start stop : Nat} {new : String}
    (he : e.edit start stop new = .ok e') (hmax : e'.length ≤ maxLength) :
    Reports e'.styles e e' := by
  obtain ⟨⟨hle, hstop⟩, rfl⟩ := edit_eq_ok_iff.1 he
  rw [length_restyle, (kept_placeCaret _ _).length_eq] at hmax
  refine .trans (.trans ?_ (reports_placeCaret _ _)) (reports_restyle _ _ _)
  split at hmax
  · rename_i hch
    rw [if_pos hch]
    exact h.reports_changeText new hle hstop hmax
  · rename_i hch
    rw [if_neg hch]
    exact .refl e

theorem Fitting.reports_replace (h : e.Fitting) {start stop : Nat} {new : String}
    (he : e.replace start stop new = .ok e') (hmax : e'.length ≤ maxLength) :
    Reports e'.styles e e' :=
  h.reports_edit (replace_eq_ok_iff.1 he).2 hmax

theorem reports_selectRange (e : Editor) (start stop : Nat) :
    Reports (e.selectRange start stop).styles e (e.selectRange start stop) :=
  .trans (.trans (e.reports_placeSelection _) (reports_placeCaret _ stop)) (reports_restyle _ _ _)

theorem reports_setLanguage (e : Editor) (language : Language) :
    Reports (e.setLanguage language).styles e (e.setLanguage language) :=
  .trans (reports_of_hear rfl rfl) (reports_requestStyles _)

theorem reports_showStyles (e : Editor) (styles : Spans) :
    Reports (e.showStyles styles).2.styles e (e.showStyles styles).2 := by
  unfold showStyles
  split
  · exact reports_of_hear rfl rfl
  · exact .refl e

theorem Fitting.reports_operate (h : e.Fitting) (o : Operation)
    (hmax : (e.operate o).length ≤ maxLength) :
    Reports (e.operate o).styles e (e.operate o) := by
  cases o with
  | replace start stop new => exact reports_refused hmax fun _ => h.reports_replace
  | insert offset new => exact reports_refused hmax fun _ => h.reports_replace
  | delete start stop => exact reports_refused hmax fun _ => h.reports_replace
  | setText new => exact reports_refused hmax fun _ => h.reports_edit
  | setCaret offset =>
    refine reports_refused hmax fun e' he _ => ?_
    obtain ⟨-, rfl⟩ := setCaret_eq_ok_iff.1 he
    exact e.reports_selectRange offset offset
  | select start stop =>
    refine reports_refused hmax fun e' he _ => ?_
    obtain ⟨-, rfl⟩ := select_eq_ok_iff.1 he
    exact e.reports_selectRange start stop
  | setEditable value => exact reports_of_eq rfl rfl
  | setCaretSensitive value => exact reports_of_eq rfl rfl
  | setLanguage language => exact e.reports_setLanguage language
  | setExtensions extensions =>
    exact .trans (m := { e with requests := e.requests.setExtensions extensions })
      (reports_of_eq rfl rfl) (reports_requestStyles _)
  | addExtension c =>
    exact .trans (m := { e with requests := e.requests.addExtension c })
      (reports_of_eq rfl rfl) (reports_requestStyles _)
  | requestStyles => exact e.reports_requestStyles
  | showStyles styles => exact e.reports_showStyles styles

/-! ## What arrives -/

theorem reports_followUpdate (e : Editor) (update : Update) :
    Reports (e.followUpdate update).styles e (e.followUpdate update) := by
  cases update with
  | caret offset => exact .refl e
  | selection selection =>
    cases selection with
    | none => exact e.reports_placeSelection none
    | some r =>
      simp only [followUpdate]
      split
      · exact e.reports_selectRange r.start r.stop
      · exact .refl e
  | language language => exact e.reports_setLanguage language

theorem reports_followCaret (e : Editor) (offset : Nat) :
    Reports (e.followCaret offset).styles e (e.followCaret offset) := by
  unfold followCaret
  split
  · exact .trans (e.reports_placeCaret offset) (reports_restyle _ _ _)
  · exact .refl e

theorem reports_showDelivery (e : Editor) (d : Delivery) :
    Reports (e.showDelivery d).2.styles e (e.showDelivery d).2 := by
  unfold showDelivery
  split
  · exact .refl e
  · split
    · exact .refl e
    · exact reports_of_hear rfl rfl

theorem reports_handle (e : Editor) (c : Completion) :
    Reports (e.handle c).2.styles e (e.handle c).2 := by
  have hrequests : ∀ (requests : Requests) (shown : Spans),
      Reports shown e { e with requests := requests } := fun _ _ => reports_of_eq rfl rfl
  unfold handle
  split
  · exact hrequests _ _
  · exact hrequests _ _
  · exact (hrequests _ _).trans (reports_showDelivery _ _)

/-- What a step tells leads a replica of the editor to one of what it became. -/
theorem Fitting.reports_step (h : e.Fitting) (s : Step) (hmax : (e.step s).length ≤ maxLength) :
    Reports (e.step s).styles e (e.step s) := by
  cases s with
  | operation o => exact h.reports_operate o hmax
  | conclude number => exact reports_of_eq rfl rfl
  | arrive number => exact reports_of_eq rfl rfl
  | follow update => exact e.reports_followUpdate update
  | followCaret offset => exact e.reports_followCaret offset
  | receive =>
    simp only [step, receiveNext]
    split
    · exact .refl e
    · exact .trans (reports_of_eq rfl rfl) (reports_handle _ _)
  | mail inbox outbox => exact reports_of_eq rfl rfl

/-! ## Runs -/

theorem tells_eq {s : Step} {news : List Event}
    (h : (e.step s).events = news.reverse ++ e.events) : e.tells s = news := by
  rw [tells, h, List.length_append, Nat.add_sub_cancel, List.take_left', List.reverse_reverse]
  rfl

/-- What is told in a run leads a replica of the editor to one of what it became, and nothing else
was told. -/
theorem WellPlaced.foldlM_heard (h : e.WellPlaced) {steps : List Step}
    (hmax : ∀ n, (e.run (steps.take n)).length ≤ maxLength) :
    (e.run steps).events = ((e.heard steps).map Prod.fst).reverse ++ e.events ∧
      (e.heard steps).foldlM Replica.hear e.replica = some (e.run steps).replica := by
  induction steps generalizing e with
  | nil => exact ⟨rfl, rfl⟩
  | cons s steps ih =>
    obtain ⟨news, hnews, hhear⟩ := h.toFitting.reports_step s (hmax 1)
    obtain ⟨hevents, hfold⟩ := ih (h.step s) fun n => hmax (n + 1)
    rw [run_cons, heard, tells_eq hnews]
    refine ⟨?_, ?_⟩
    · have hfst : (news.map (·, (e.step s).styles)).map Prod.fst = news := by
        rw [List.map_map]
        exact List.map_id news
      rw [hevents, hnews, List.map_append, hfst, List.reverse_append, List.append_assoc]
    · rw [List.foldlM_append, hhear]
      exact hfold

/-- A new editor in any run in which no text is too long: what it told leads from what is known of a
new editor to what the editor is, so nothing was left out and nothing told twice. The last event of
each kind says where the caret is, what is selected, which version and which language there is, and
where the styles come from; the versions count the changes of the text, and these add up to its
length. Every action is a run of steps, so all this holds after every call. -/
theorem replica_of_heard (text : String) (language : Language) (settings : Settings)
    (steps : List Step)
    (hmax : ∀ n, ((new text language settings).run (steps.take n)).length ≤ maxLength) :
    let start := new text language settings
    let e := start.run steps
    (start.heard steps).map Prod.fst = e.events.reverse ∧
    (start.heard steps).foldlM Replica.hear
      ⟨text.length, 0, none, 0, language.name, .plain text.length, none⟩ = some e.replica ∧
    e.caret = (e.events.findSome? Event.caret?).getD 0 ∧
    e.selection = (e.events.findSome? Event.selection?).getD none ∧
    e.version = (e.events.findSome? Event.version?).getD 0 ∧
    e.version = e.events.countP (·.version?.isSome) ∧
    e.length = text.length + (e.events.map Event.gain).sum ∧
    e.language.name = (e.events.findSome? Event.languageName?).getD language.name ∧
    e.source = (e.events.findSome? Event.source?).getD none ∧
    ∀ a : Action, ∃ more, e.act a = e.run more := by
  intro start e
  obtain ⟨hevents, hfold⟩ := (wellPlaced_new text language settings).foldlM_heard hmax
  have htold : (start.heard steps).map Prod.fst = e.events.reverse := by
    have h : e.events = ((start.heard steps).map Prod.fst).reverse :=
      hevents.trans (List.append_nil _)
    rw [h, List.reverse_reverse]
  have hlast : ∀ {α : Type} (get : Replica → α) (last? : Event → Option α),
      (∀ {r r' event shown}, Replica.hear r (event, shown) = some r' →
        get r' = (last? event).getD (get r)) →
      get e.replica = (e.events.findSome? last?).getD (get start.replica) := by
    intro α get last? hhear
    have h := Replica.eq_last_of_foldlM get last? hhear hfold
    rwa [htold, List.reverse_reverse] at h
  obtain ⟨hversion, hlength⟩ := Replica.eq_total_of_foldlM hfold
  rw [htold, List.countP_reverse] at hversion
  rw [htold, List.map_reverse, List.sum_reverse] at hlength
  refine ⟨htold, hfold, ?_, ?_, ?_, hversion.trans (Nat.zero_add _), hlength, ?_, ?_,
    e.exists_run_act⟩
  · exact hlast Replica.caret Event.caret? fun h => (Replica.hears_of_hear h).caret_eq
  · exact hlast Replica.selection Event.selection? fun h => (Replica.hears_of_hear h).selection_eq
  · exact hlast Replica.version Event.version? fun h => (Replica.hears_of_hear h).version_eq
  · exact hlast Replica.languageName Event.languageName? fun h =>
      (Replica.hears_of_hear h).languageName_eq
  · exact hlast Replica.source Event.source? fun h => (Replica.hears_of_hear h).source_eq

/-- A match is typed and styled, and then the language changes. -/
theorem replica_of_heard_typed :
    let language :=
      { Language.ofPattern "x" (some ⟨"x", .text ['x'], []⟩) [] with labelling := .matchedText }
    let steps : List Step := [.operation (.insert 1 "x"), .conclude 1, .arrive 1, .receive,
      .operation (.setLanguage .plainText)]
    let start := new "ab" language .standard
    (start.heard steps).map Prod.fst = [.textChanged 1 0 1 1, .caretMoved 2, .stylesShown (some 1),
      .languageChanged "Plain Text", .stylesShown none] ∧
    (start.heard steps).foldlM Replica.hear
      ⟨2, 0, none, 0, "x", .plain 2, none⟩ = some (start.run steps).replica ∧
    (start.run steps).length = 2 + (1 : Int) := by
  intro language steps start
  have hshort : ∀ n ≤ 5, (start.run (steps.take n)).length ≤ maxLength := by decide +kernel
  have hmax : ∀ n, (start.run (steps.take n)).length ≤ maxLength := by
    intro n
    rcases Nat.le_total n 5 with hn | hn
    · exact hshort n hn
    · rw [List.take_of_length_le (show steps.length ≤ n from hn)]
      exact hshort 5 (Nat.le_refl 5)
  obtain ⟨-, hfold, -, -, -, -, hlength, -⟩ := replica_of_heard "ab" language .standard steps hmax
  have htwo : "ab".length = 2 := by decide
  have hgain : ((start.run steps).events.map Event.gain).sum = 1 := by decide +kernel
  rw [htwo] at hfold hlength
  rw [hgain] at hlength
  exact ⟨by decide +kernel, hfold, hlength⟩

end Editor

end Highlight
