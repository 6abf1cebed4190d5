import Highlight.Proofs.Editor.Currency
import Highlight.Proofs.Editor.Requesting

/-!
# What a call that handles arrivals answers

Such a call follows the updates of the inbox and then handles completions, one after the other. In
the meantime workers go on: computations end, and completions arrive (`Moment`). A call that does not
wait handles what is in the queue, and one that waits goes on for some time, until nothing is current
any more or it has waited long enough; both are runs of such moments (`catchUp_eq_attend`,
`exists_awaitStyles_eq_attend`).

Whatever happens at which moment, only the completion of the request that is current after the
updates makes a difference (`Sound.attended`): it is shown and counted, or its error is the answer.
-/

namespace Highlight

namespace Editor

/-- What can happen while completions are handled. -/
inductive Moment where
  /-- The computation for the request with a number ends. -/
  | conclude (number : RequestNumber)
  /-- The completion for the request with a number arrives. -/
  | arrive (number : RequestNumber)
  /-- The oldest completion of the queue is handled, if there is one. -/
  | receive

end Editor

/-- The completions that are taken from the queue at some moments. -/
def Requests.received (s : Requests) : List Editor.Moment → List Completion
  | [] => []
  | .conclude number :: moments => (s.conclude number).received moments
  | .arrive number :: moments => (s.arrive number).received moments
  | .receive :: moments =>
    match s.queue with
    | [] => s.received moments
    | c :: rest => c :: { s with queue := rest }.received moments

namespace Editor

/-- Handles completions at some moments, up to the first error, and counts the results shown. -/
def attendFrom (e : Editor) (shown : Nat) : List Moment → Except StylingError Nat × Editor
  | [] => (.ok shown, e)
  | .conclude number :: moments => (e.step (.conclude number)).attendFrom shown moments
  | .arrive number :: moments => (e.step (.arrive number)).attendFrom shown moments
  | .receive :: moments =>
    match e.requests.queue with
    | [] => e.attendFrom shown moments
    | c :: rest =>
      match (e.leaving rest).handle c with
      | (.error error, e) => (.error error, e)
      | (.ok more, e) => e.attendFrom (shown + more) moments

/-- Follows what has arrived, and then handles completions at some moments. -/
def attend (e : Editor) (moments : List Moment) : Except StylingError Nat × Editor :=
  e.followInbox.attendFrom 0 moments

/-- What handling the completions `received` comes to where `count` results were shown before. -/
inductive Attended (m : Editor) (count : Nat) (received : List Completion) :
    Except StylingError Nat × Editor → Prop where
  | passedOver (requests : Requests) (hcur : requests.current = m.requests.current)
      (hn : ∀ c ∈ received, m.requests.running ≠ some c.number) :
      Attended m count received (.ok count, { m with requests := requests })
  | shown (requests : Requests) (r : Request) (c : Completion) (styles : Spans)
      (hr : m.requests.current = some r) (hc : r.completion? = some c) (hmem : c ∈ received)
      (hs : c.result = .ok styles) :
      Attended m count received
        (.ok (count + 1), { m with requests := requests }.styled r.number styles)
  | failed (requests : Requests) (r : Request) (c : Completion) (error : StylingError)
      (hr : m.requests.current = some r) (hc : r.completion? = some c) (hmem : c ∈ received)
      (hs : c.result = .error error) :
      Attended m count received (.error error, { m with requests := requests }.settled)

variable {e m : Editor} {moments : List Moment}

/-! ## Calls as runs of moments -/

theorem attendFrom_receive_nil (hq : e.requests.queue = []) (shown : Nat) (moments : List Moment) :
    e.attendFrom shown (.receive :: moments) = e.attendFrom shown moments := by
  rw [attendFrom, hq]

theorem attendFrom_receive_cons {c : Completion} {rest : List Completion}
    (hq : e.requests.queue = c :: rest) (shown : Nat) (moments : List Moment) :
    e.attendFrom shown (.receive :: moments) =
      match (e.leaving rest).handle c with
      | (.error error, after) => (.error error, after)
      | (.ok more, after) => after.attendFrom (shown + more) moments := by
  rw [attendFrom, hq]

theorem attendFrom_append (e : Editor) (shown : Nat) (first second : List Moment) :
    e.attendFrom shown (first ++ second) =
      match e.attendFrom shown first with
      | (.error error, after) => (.error error, after)
      | (.ok count, after) => after.attendFrom count second := by
  induction first generalizing e shown with
  | nil => rfl
  | cons moment first ih =>
    cases moment with
    | conclude number => exact ih _ shown
    | arrive number => exact ih _ shown
    | receive =>
      cases hq : e.requests.queue with
      | nil =>
        rw [List.cons_append, attendFrom_receive_nil hq, attendFrom_receive_nil hq]
        exact ih e shown
      | cons c rest =>
        rw [List.cons_append, attendFrom_receive_cons hq, attendFrom_receive_cons hq]
        rcases (e.leaving rest).handle c with ⟨error | more, after⟩
        · rfl
        · exact ih after (shown + more)

/-- A queue is handled by taking as many completions as there are. -/
theorem attendFrom_replicate {queue : List Completion} (hq : e.requests.queue = queue)
    (shown : Nat) :
    e.attendFrom shown (.replicate queue.length .receive) = e.receiveFrom shown queue := by
  induction queue generalizing e shown with
  | nil => rfl
  | cons c rest ih =>
    have hleft : ((e.leaving rest).handle c).2.requests.queue = rest := queue_handle ..
    rw [List.length_cons, List.replicate_succ, attendFrom_receive_cons hq, receiveFrom]
    rcases hc : (e.leaving rest).handle c with ⟨error | more, after⟩
    · rfl
    · rw [hc] at hleft
      exact ih hleft (shown + more)

theorem received_replicate {s : Requests} {queue : List Completion} (hq : s.queue = queue) :
    s.received (.replicate queue.length .receive) = queue := by
  induction queue generalizing s with
  | nil => rfl
  | cons c rest ih =>
    rw [List.length_cons, List.replicate_succ, Requests.received, hq]
    exact congrArg (c :: ·) (ih rfl)

/-- A call that does not wait takes what is in the queue. -/
theorem catchUp_eq_attend (e : Editor) :
    e.catchUp = e.attend (.replicate e.followInbox.requests.queue.length .receive) :=
  (attendFrom_replicate rfl 0).symm

theorem finish_eq (e : Editor) {number : RequestNumber} (h : e.requests.running = some number) :
    e.finish = (e.step (.conclude number)).step (.arrive number) := by
  simp only [finish, Requests.finish, h]
  rfl

/-- A wait in which the worker of the current request comes to its end is a call of this kind. -/
theorem exists_awaitStyles_eq_attend (e : Editor) :
    ∃ moments, e.awaitStyles = e.attend moments := by
  let first : List Moment := .replicate e.followInbox.requests.queue.length .receive
  have hfirst : e.catchUp = e.followInbox.attendFrom 0 first := e.catchUp_eq_attend
  rcases hcatch : e.catchUp with ⟨answer, after⟩
  rw [hcatch] at hfirst
  cases answer with
  | error error =>
    refine ⟨first, ?_⟩
    rw [awaitStyles, hcatch, attend, ← hfirst]
  | ok shown =>
    cases hcur : after.requests.current with
    | none =>
      have hidle : after.requests.isIdle = true := by rw [Requests.isIdle, hcur]; rfl
      refine ⟨first, ?_⟩
      rw [awaitStyles, hcatch, attend, ← hfirst]
      exact if_pos hidle
    | some r =>
      have hbusy : ¬after.requests.isIdle = true := by
        rw [Requests.isIdle, hcur]
        exact Bool.false_ne_true
      have hrunning : after.requests.running = some r.number :=
        Requests.running_eq_some.2 ⟨r, hcur, rfl⟩
      refine ⟨first ++ .conclude r.number :: .arrive r.number ::
        .replicate after.finish.requests.queue.length .receive, ?_⟩
      rw [attend, attendFrom_append, ← hfirst, awaitStyles, hcatch]
      show (if after.requests.isIdle then (.ok shown, after) else after.finish.receive shown) = _
      rw [if_neg hbusy, receive, ← attendFrom_replicate rfl shown]
      simp only [attendFrom]
      rw [← after.finish_eq hrunning]

/-! ## Moments -/

/-- What happens at a moment, as a step of a run. -/
def Moment.step : Moment → Step
  | .conclude number => .conclude number
  | .arrive number => .arrive number
  | .receive => .receive

theorem reaches_moment (e : Editor) (moment : Moment) : e.Reaches (e.step moment.step) := by
  refine reaches_step fun o ho => ?_
  cases moment <;> cases ho

theorem reaches_attendFrom (e : Editor) (shown : Nat) (moments : List Moment) :
    e.Reaches (e.attendFrom shown moments).2 := by
  induction moments generalizing e shown with
  | nil => exact .refl e
  | cons moment moments ih =>
    cases moment with
    | conclude number => exact (e.reaches_moment (.conclude number)).trans (ih _ shown)
    | arrive number => exact (e.reaches_moment (.arrive number)).trans (ih _ shown)
    | receive =>
      cases hq : e.requests.queue with
      | nil =>
        rw [attendFrom_receive_nil hq]
        exact ih e shown
      | cons c rest =>
        have hnext : e.step .receive = ((e.leaving rest).handle c).2 := by
          simp only [step, receiveNext, hq]
        have hreceive : e.Reaches (e.step .receive) := e.reaches_moment .receive
        rw [hnext] at hreceive
        rw [attendFrom_receive_cons hq]
        rcases hc : (e.leaving rest).handle c with ⟨error | more, after⟩
        · rwa [hc] at hreceive
        · rw [hc] at hreceive
          exact hreceive.trans (ih after (shown + more))

/-- Once nothing is current, nothing is shown any more. -/
theorem Attended.of_idle {count : Nat} {received : List Completion}
    {answer : Except StylingError Nat × Editor} (h : Attended m count received answer)
    (hidle : m.requests.current = none) :
    ∃ requests : Requests, requests.current = none ∧
      answer = (.ok count, { m with requests := requests }) := by
  cases h with
  | passedOver requests hcur => exact ⟨requests, hcur.trans hidle, rfl⟩
  | shown requests r c styles hr =>
    rw [hidle] at hr
    cases hr
  | failed requests r c error hr =>
    rw [hidle] at hr
    cases hr

/-- What was taken before without making a difference may be counted in. -/
theorem Attended.widen {requests : Requests} {count : Nat} {received wider : List Completion}
    {answer : Except StylingError Nat × Editor}
    (h : Attended { m with requests := requests } count received answer)
    (hcur : requests.current = m.requests.current) (hsub : received ⊆ wider)
    (hn : ∀ c ∈ wider, c ∈ received ∨ m.requests.running ≠ some c.number) :
    Attended m count wider answer := by
  have hrunning : requests.running = m.requests.running := by
    rw [Requests.running, Requests.running, hcur]
  cases h with
  | passedOver left hleft hnone =>
    refine .passedOver left (hleft.trans hcur) fun c hc => ?_
    rcases hn c hc with hmem | hne
    · rw [← hrunning]
      exact hnone c hmem
    · exact hne
  | shown left r c styles hr hc hmem hs =>
    exact .shown left r c styles (hcur ▸ hr) hc (hsub hmem) hs
  | failed left r c error hr hc hmem hs =>
    exact .failed left r c error (hcur ▸ hr) hc (hsub hmem) hs

/-- Only the completion of the request that is current makes a difference, at whatever moment it
arrives. -/
theorem Sound.attended (h : e.Sound) (count : Nat) (moments : List Moment) :
    Attended e count (e.requests.received moments) (e.attendFrom count moments) := by
  induction moments generalizing e count with
  | nil => exact .passedOver e.requests rfl (List.forall_mem_nil _)
  | cons moment moments ih =>
    cases moment with
    | conclude number =>
      exact (ih (h.step (.conclude number)) count).widen rfl (List.Subset.refl _) fun _ => .inl
    | arrive number =>
      exact (ih (h.step (.arrive number)) count).widen rfl (List.Subset.refl _) fun _ => .inl
    | receive =>
      cases hq : e.requests.queue with
      | nil =>
        rw [attendFrom_receive_nil hq, Requests.received, hq]
        exact ih h count
      | cons c rest =>
        rw [attendFrom_receive_cons hq, Requests.received, hq]
        have hleft : (e.leaving rest).Sound := h.leaving hq
        have hh := h.handling hq
        generalize (e.leaving rest).handle c = answer at hh ⊢
        cases hh with
        | passedOver hn =>
          refine (ih hleft count).widen rfl (List.subset_cons_self _ _) fun x hx => ?_
          rcases List.mem_cons.1 hx with rfl | hrest
          · exact .inr hn
          · exact .inl hrest
        | shown r styles hr hc hs =>
          -- The request is settled: what is taken after its completion is of no consequence.
          have hrest := ih (hleft.styled r.number styles) (count + 1)
          obtain ⟨requests, hidle, he⟩ := hrest.of_idle rfl
          have hsettled : { requests with current := none } = requests := by rw [← hidle]
          simp only [he]
          rw [← hsettled]
          exact .shown requests r c styles hr hc List.mem_cons_self hs
        | failed r error hr hc hs =>
          exact .failed _ r c error hr hc List.mem_cons_self hs

/-- So it is with the completions of a queue. -/
theorem Sound.attended_receiveFrom (h : e.Sound) {queue : List Completion}
    (hq : e.requests.queue = queue) (count : Nat) :
    Attended e count queue (e.receiveFrom count queue) := by
  have hattended := h.attended count (.replicate queue.length .receive)
  rwa [attendFrom_replicate hq, received_replicate hq] at hattended

/-! ## Answers -/

/-- An error that is reported is one of the computation, and never a cancellation. -/
theorem Attended.eq_error_iff {count : Nat} {received : List Completion}
    {answer : Except StylingError Nat × Editor} (h : Attended m count received answer)
    (error : StylingError) :
    answer.1 = .error error ↔ ∃ r c, m.requests.current = some r ∧ r.completion? = some c ∧
      c ∈ received ∧ c.result = .error error := by
  cases h with
  | passedOver requests hcur hn =>
    refine ⟨nofun, ?_⟩
    rintro ⟨r, c, hr, hc, hmem, -⟩
    refine absurd (Requests.running_eq_some.2 ⟨r, hr, ?_⟩) (hn c hmem)
    exact (Request.completion?_fields hc).1.symm
  | shown requests r c styles hr hc hmem hs =>
    refine ⟨nofun, ?_⟩
    rintro ⟨q, d, hq, hd, -, herror⟩
    cases hr.symm.trans hq
    cases hc.symm.trans hd
    rw [hs] at herror
    cases herror
  | failed requests r c failure hr hc hmem hs =>
    constructor
    · rintro ⟨⟩
      exact ⟨r, c, hr, hc, hmem, hs⟩
    · rintro ⟨q, d, hq, hd, -, herror⟩
      cases hr.symm.trans hq
      cases hc.symm.trans hd
      exact congrArg Except.error (Except.error.inj (hs.symm.trans herror))

/-- Without an error the current request stays what it was, or its styles were shown. -/
theorem Attended.ok_cases {count k : Nat} {received : List Completion}
    {answer : Except StylingError Nat × Editor} (h : Attended m count received answer)
    (hk : answer.1 = .ok k) :
    k = count ∧ (∀ c ∈ received, m.requests.running ≠ some c.number) ∧
        answer.2 = { m with requests := answer.2.requests } ∧
        answer.2.requests.current = m.requests.current ∨
      k = count + 1 ∧ answer.2.requests.current = none ∧ ∃ r c styles,
        m.requests.current = some r ∧ r.completion? = some c ∧ c ∈ received ∧
        c.result = .ok styles ∧
        answer.2 = { m with
          requests := answer.2.requests
          styles := styles
          source := some r.number
          events := .stylesShown (some r.number) :: m.events } := by
  cases h with
  | passedOver requests hcur hn =>
    cases hk
    exact .inl ⟨rfl, hn, rfl, hcur⟩
  | shown requests r c styles hr hc hmem hs =>
    cases hk
    exact .inr ⟨rfl, rfl, r, c, styles, hr, hc, hmem, hs, rfl⟩
  | failed => cases hk

/-- An error settles the current request and leaves all else. -/
theorem Attended.of_error {count : Nat} {received : List Completion} {error : StylingError}
    {answer : Except StylingError Nat × Editor} (h : Attended m count received answer)
    (herror : answer.1 = .error error) :
    (∀ number, error ≠ .cancelled number) ∧ answer.2.requests.current = none ∧
      answer.2 = { m with requests := answer.2.requests } := by
  cases h with
  | passedOver => cases herror
  | shown => cases herror
  | failed requests r c failure hr hc hmem hs =>
    cases herror
    refine ⟨fun number hcancelled => ?_, rfl, rfl⟩
    exact Request.result_ne_cancelled hc number (hs.trans (congrArg Except.error hcancelled))

theorem shownRequests_followUpdates (e : Editor) (updates : List Update) :
    (updates.foldl followUpdate e).shownRequests = e.shownRequests := by
  induction updates generalizing e with
  | nil => rfl
  | cons update updates ih =>
    exact (ih (e.followUpdate update)).trans (shownRequests_outcome (e.outcome_followUpdate update))

/-- Following updates shows the styles of no request. -/
theorem shownRequests_followInbox (e : Editor) :
    e.followInbox.shownRequests = e.shownRequests := by
  have hfollowed := shownRequests_followUpdates { e with inbox := [] } e.inbox
  simp only [followInbox]
  split
  · exact (shownRequests_outcome (outcome_followCaret _ _)).trans hfollowed
  · exact hfollowed

/-! ## Later requests -/

/-- Requests are counted upwards. -/
theorem Sound.lastNumber_le_step (h : e.Sound) (s : Step) :
    e.requests.lastNumber ≤ (e.step s).requests.lastNumber := by
  have houtcome : ∀ {e' : Editor}, Outcome e e' → e.requests.lastNumber ≤ e'.requests.lastNumber :=
    fun ho => by
      obtain ⟨made, hissues, -⟩ := ho.exists_issues
      rw [hissues.lastNumber_eq]
      exact Nat.le_add_right _ _
  cases s with
  | operation o =>
    rcases e.outcome_operate o with ⟨styles, rfl⟩ | ho
    · exact Nat.le_of_eq (congrArg Requests.lastNumber (e.requests_showStyles styles)).symm
    · exact houtcome ho
  | conclude number => exact Nat.le_refl _
  | arrive number => exact Nat.le_refl _
  | follow update => exact houtcome (e.outcome_followUpdate update)
  | followCaret offset => exact houtcome (e.outcome_followCaret offset)
  | receive => exact Nat.le_of_eq (congrArg Document.lastNumber h.document_receive).symm
  | mail inbox outbox => exact Nat.le_refl _

theorem Sound.lastNumber_le_run (h : e.Sound) (steps : List Step) :
    e.requests.lastNumber ≤ (e.run steps).requests.lastNumber := by
  induction steps generalizing e with
  | nil => exact Nat.le_refl _
  | cons s steps ih => exact Nat.le_trans (h.lastNumber_le_step s) (ih (h.step s))

/-- What is current after a time when nothing was is a request made since. -/
theorem Sound.lastNumber_lt_of_current (h : e.Sound) (hw : e.WellPlaced)
    (hidle : e.requests.current = none) (steps : List Step) {q : Request}
    (hq : (e.run steps).requests.current = some q) : e.requests.lastNumber < q.number := by
  obtain ⟨earlier, s, later, -, hmakes, -⟩ := exists_makes h hw hidle steps hq
  exact Nat.lt_of_le_of_lt (h.lastNumber_le_run earlier) hmakes.fresh

/-- A call after a time when nothing was current reports errors of requests made since. -/
theorem Sound.later_error (h : e.Sound) (hw : e.WellPlaced) (hidle : e.requests.current = none)
    {more : List Step} {later : List Moment} {failure : StylingError}
    (hfailure : ((e.run more).attend later).1 = .error failure) :
    ∃ q c, (e.run more).followInbox.requests.current = some q ∧ q.completion? = some c ∧
      c.result = .error failure ∧ e.requests.lastNumber < q.number := by
  obtain ⟨updates, hm, -⟩ := (e.run more).reaches_followInbox
  have hrun : (e.run more).followInbox = e.run (more ++ updates) := by
    rw [hm, run_append]
  have hsound : (e.run more).followInbox.Sound := hrun ▸ h.run _
  obtain ⟨q, c, hq, hc, -, herror⟩ := ((hsound.attended 0 later).eq_error_iff failure).1 hfailure
  refine ⟨q, c, hq, hc, herror, ?_⟩
  rw [hrun] at hq
  exact h.lastNumber_lt_of_current hw hidle _ hq

/-- A call that handles arrivals, at whatever moments completions come in and are handled, answers
with a number `k` of results or with an error. The number is that of the results that were shown:
none, where no completion of the current request was taken, or one, that of the request `r` that was
current after the updates, and then nothing is current any more. An error is the answer exactly if
the completion of this request was taken, and is an error. Then nothing is current any more, nothing
was shown, and all but the requests is as the updates left it; the error is not a cancellation, so
spans did not cover the snapshot or the computation broke off; and an error that a later call answers
with is that of a later request. -/
theorem attend_answers (text : String) (language : Language) (settings : Settings)
    (steps : List Step) :
    let e := (new text language settings).run steps
    let m := e.followInbox
    let all : List Moment := .replicate m.requests.queue.length .receive
    (e.catchUp = e.attend all ∧ m.requests.received all = m.requests.queue) ∧
    (∃ moments, e.awaitStyles = e.attend moments) ∧
    ∀ moments : List Moment,
      let answer := e.attend moments
      let e' := answer.2
      (∀ k, answer.1 = .ok k →
        e'.shownRequests.length = e.shownRequests.length + k ∧
        (k = 0 ∧ (∀ c ∈ m.requests.received moments, m.requests.running ≠ some c.number) ∧
            e' = { m with requests := e'.requests } ∧
            e'.requests.current = m.requests.current ∨
          k = 1 ∧ e'.requests.isIdle ∧ ∃ r c styles, m.requests.current = some r ∧
            r.completion? = some c ∧ c ∈ m.requests.received moments ∧ c.result = .ok styles ∧
            e' = { m with
              requests := e'.requests
              styles := styles
              source := some r.number
              events := .stylesShown (some r.number) :: m.events })) ∧
      (∀ error, answer.1 = .error error ↔ ∃ r c, m.requests.current = some r ∧
        r.completion? = some c ∧ c ∈ m.requests.received moments ∧ c.result = .error error) ∧
      (∀ error, answer.1 = .error error →
        (∀ number, error ≠ .cancelled number) ∧
        e'.requests.isIdle ∧ e' = { m with requests := e'.requests } ∧
        e'.shownRequests = e.shownRequests ∧
        ∀ r more later failure, m.requests.current = some r →
          ((e'.run more).attend later).1 = .error failure →
            ∃ q c, (e'.run more).followInbox.requests.current = some q ∧ q.completion? = some c ∧
              c.result = .error failure ∧ r.number < q.number) := by
  intro e m all
  have hstart : (new text language settings).Sound := sound_new text language settings
  have hplaced : (new text language settings).WellPlaced := wellPlaced_new text language settings
  obtain ⟨updates, hm, -⟩ := e.reaches_followInbox
  have hrun : m = (new text language settings).run (steps ++ updates) := by
    rw [run_append]
    exact hm
  have hsound : m.Sound := hrun ▸ hstart.run _
  have hwell : m.WellPlaced := hrun ▸ hplaced.run _
  have hshown : m.shownRequests = e.shownRequests := e.shownRequests_followInbox
  refine ⟨⟨e.catchUp_eq_attend, received_replicate rfl⟩, e.exists_awaitStyles_eq_attend,
    fun moments => ?_⟩
  intro answer e'
  have hattended : Attended m 0 (m.requests.received moments) answer := hsound.attended 0 moments
  refine ⟨fun k hk => ?_, hattended.eq_error_iff, fun error herror => ?_⟩
  · rcases hattended.ok_cases hk with
      ⟨rfl, hn, he, hcur⟩ | ⟨rfl, hidle, r, c, styles, hr, hc, hmem, hs, he⟩
    · refine ⟨?_, .inl ⟨rfl, hn, he, hcur⟩⟩
      rw [show e' = _ from he, Nat.add_zero, ← hshown]
      rfl
    · refine ⟨?_, .inr ⟨rfl, ?_, r, c, styles, hr, hc, hmem, hs, he⟩⟩
      · rw [show e' = _ from he, ← hshown]
        rfl
      · rw [Requests.isIdle, hidle]
        rfl
  · obtain ⟨hcancelled, hidle, he⟩ := hattended.of_error herror
    refine ⟨hcancelled, by rw [Requests.isIdle, hidle]; rfl, he, ?_, ?_⟩
    · rw [show e' = _ from he, ← hshown]
      rfl
    · intro r more later failure hr hfailure
      obtain ⟨between, hbetween, -⟩ := m.reaches_attendFrom 0 moments
      have hafter : e' = m.run between := hbetween
      have hsound' : e'.Sound := hafter ▸ hsound.run between
      have hwell' : e'.WellPlaced := hafter ▸ hwell.run between
      obtain ⟨q, c, hq, hc, hqerror, hlt⟩ := hsound'.later_error hwell' hidle hfailure
      refine ⟨q, c, hq, hc, hqerror, Nat.lt_of_le_of_lt ?_ hlt⟩
      rw [hsound.coherent.number_eq r hr, hafter]
      exact hsound.lastNumber_le_run between

/-- Spans that do not cover the text are reported, and nothing is current any more. -/
example :
    let short : Contributor := .ofSpans "short" fun _ => .ok (.plain 1)
    let language := Language.ofPattern "x" (some ⟨"x", .text ['x'], []⟩) [short]
    let e := (new "ab" language .standard).run [.operation .requestStyles, .conclude 1, .arrive 1]
    e.catchUp.1 = .error (.lengthMismatch "short" 2 1) ∧ e.catchUp.2.requests.isIdle := by
  decide +kernel

end Editor

end Highlight
