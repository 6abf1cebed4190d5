import Highlight.Proofs.Requests.Coherence

/-!
# What the owner of requests is told

A session is what happens to the requests of one editor, in any order: requests are made and
withdrawn, workers come to their end and send their completions, also those of requests that were
superseded or withdrawn long ago, and completions are collected. Its log holds all that the owner
was told, the last notice first.

* `Session.Sound`: the invariant of a session, kept by every action (`Session.Sound.perform`);
* `Session.delivers_only_current`: only the request that is open at that moment is delivered, each
  at most once and in the order of the numbers, and it is delivered as soon as its completion can
  be collected.
-/

namespace Highlight.Requests

/-- What can happen to the requests of one editor. -/
inductive Action where
  | issue (snapshot : Snapshot) (language : Language)
  | withdraw
  | setExtensions (extensions : List Contributor)
  | addExtension (c : Contributor)
  /-- The computation for the request with a number ends. -/
  | conclude (number : RequestNumber)
  /-- The completion for the request with a number arrives. -/
  | arrive (number : RequestNumber)
  | collect

/-- What the owner of requests is told. -/
inductive Notice where
  | issued (request : Request)
  | withdrawn (number : RequestNumber)
  /-- Styles or an error were handed out for a request. -/
  | delivered (number : RequestNumber) (answer : Except StylingError Delivery)

/-- The notice of what `collect` hands out. An error is about the completion taken last. -/
def collected (s : Requests) : Option Notice :=
  match s.collect with
  | (.ok none, _) => none
  | (.ok (some d), _) => some (.delivered d.number (.ok d))
  | (.error error, after) =>
    (s.queue.take (s.queue.length - after.queue.length)).getLast?.map fun c =>
      .delivered c.number (.error error)

/-! ## Reading a log -/

/-- The requests made, the last one first. -/
def issuedIn (log : List Notice) : List Request :=
  log.filterMap fun | .issued r => some r | _ => none

/-- The requests withdrawn, the last one first. -/
def withdrawnIn (log : List Notice) : List RequestNumber :=
  log.filterMap fun | .withdrawn n => some n | _ => none

/-- The requests delivered, the last one first. -/
def deliveredIn (log : List Notice) : List RequestNumber :=
  log.filterMap fun | .delivered n _ => some n | _ => none

/-- The request was made last, and was neither withdrawn nor delivered. -/
structure Open (log : List Notice) (r : Request) : Prop where
  last : (issuedIn log).head? = some r
  not_withdrawn : r.number ∉ withdrawnIn log
  not_delivered : r.number ∉ deliveredIn log

theorem mem_deliveredIn {log : List Notice} {n : RequestNumber} :
    n ∈ deliveredIn log ↔ ∃ answer, .delivered n answer ∈ log := by
  simp only [deliveredIn, List.mem_filterMap]
  constructor
  · rintro ⟨x, hx, hn⟩
    cases x <;> cases hn
    exact ⟨_, hx⟩
  · rintro ⟨answer, hx⟩
    exact ⟨_, hx, rfl⟩

theorem mem_issuedIn {log : List Notice} {r : Request} (h : .issued r ∈ log) : r ∈ issuedIn log :=
  List.mem_filterMap.2 ⟨_, h, rfl⟩

theorem mem_withdrawnIn {log : List Notice} {n : RequestNumber} (h : .withdrawn n ∈ log) :
    n ∈ withdrawnIn log :=
  List.mem_filterMap.2 ⟨_, h, rfl⟩

/-! ## Sessions -/

/-- Requests with all that their owner was told, the last notice first. -/
structure Session where
  log : List Notice
  requests : Requests

namespace Session

/-- No requests made yet. -/
def start (extensions : List Contributor) (workerName : String) : Session :=
  ⟨[], .new extensions workerName⟩

/-- One action, with what the owner is told by it. -/
def perform (t : Session) : Action → Session
  | .issue snapshot language =>
    ⟨.issued (t.requests.issued snapshot language) :: t.log, t.requests.issue snapshot language⟩
  | .withdraw => ⟨t.requests.running.toList.map .withdrawn ++ t.log, t.requests.withdraw⟩
  | .setExtensions extensions => ⟨t.log, t.requests.setExtensions extensions⟩
  | .addExtension c => ⟨t.log, t.requests.addExtension c⟩
  | .conclude number => ⟨t.log, t.requests.conclude number⟩
  | .arrive number => ⟨t.log, t.requests.arrive number⟩
  | .collect => ⟨t.requests.collected.toList ++ t.log, t.requests.collect.2⟩

/-- Actions one after the other. -/
def run (t : Session) (actions : List Action) : Session := actions.foldl perform t

/-- What the log tells agrees with what is current. -/
structure Sound (t : Session) : Prop where
  coherent : t.requests.Coherent
  current_iff : ∀ r, t.requests.current = some r ↔ Open t.log r
  last_issued : ∀ r, (issuedIn t.log).head? = some r → r.number = t.requests.lastNumber
  issued_le : ∀ r ∈ issuedIn t.log, r.number ≤ t.requests.lastNumber
  issued_order : (issuedIn t.log).Pairwise (·.number > ·.number)
  withdrawn_le : ∀ n ∈ withdrawnIn t.log, n ≤ t.requests.lastNumber
  delivered_le : ∀ n ∈ deliveredIn t.log, n ≤ t.requests.lastNumber
  delivered_order : (deliveredIn t.log).Pairwise (· > ·)
  /-- What was delivered was open then, and is what its worker computed. -/
  deliveries : ∀ later n answer earlier, t.log = later ++ .delivered n answer :: earlier →
    ∃ r c, Open earlier r ∧ r.number = n ∧ r.completion? = some c ∧ answer = c.answer

variable {t : Session}

theorem sound_start (extensions : List Contributor) (workerName : String) :
    (start extensions workerName).Sound where
  coherent := coherent_new extensions workerName
  current_iff _ := ⟨fun h => (nomatch h), fun h => (nomatch h.last)⟩
  last_issued _ h := nomatch h
  issued_le _ h := nomatch h
  issued_order := .nil
  withdrawn_le _ h := nomatch h
  delivered_le _ h := nomatch h
  delivered_order := .nil
  deliveries later n answer earlier h := by
    cases later <;> cases h

/-- What changes neither the log nor what is current keeps the invariant. -/
theorem Sound.background (h : t.Sound) {s : Requests} (hs : s.Coherent)
    (hc : s.current = t.requests.current) (hl : s.lastNumber = t.requests.lastNumber) :
    Sound ⟨t.log, s⟩ where
  coherent := hs
  current_iff r := hc ▸ h.current_iff r
  last_issued := hl ▸ h.last_issued
  issued_le := hl ▸ h.issued_le
  issued_order := h.issued_order
  withdrawn_le := hl ▸ h.withdrawn_le
  delivered_le := hl ▸ h.delivered_le
  delivered_order := h.delivered_order
  deliveries := h.deliveries

theorem Sound.issue (h : t.Sound) (snapshot : Snapshot) (language : Language) :
    (t.perform (.issue snapshot language)).Sound where
  coherent := h.coherent.issue snapshot language
  current_iff r := by
    constructor
    · rintro hr
      cases hr
      exact ⟨rfl, fun hn => Nat.not_succ_le_self _ (h.withdrawn_le _ hn),
        fun hn => Nat.not_succ_le_self _ (h.delivered_le _ hn)⟩
    · exact fun hr => hr.last
  last_issued r hr := by
    cases hr
    rfl
  issued_le r hr := by
    rcases List.mem_cons.1 hr with rfl | hr
    · exact Nat.le_refl _
    · exact Nat.le_succ_of_le (h.issued_le r hr)
  issued_order := List.pairwise_cons.2
    ⟨fun r hr => Nat.lt_succ_of_le (h.issued_le r hr), h.issued_order⟩
  withdrawn_le n hn := Nat.le_succ_of_le (h.withdrawn_le n hn)
  delivered_le n hn := Nat.le_succ_of_le (h.delivered_le n hn)
  delivered_order := h.delivered_order
  deliveries later n answer earlier he := by
    cases later with
    | nil => cases he
    | cons x later => exact h.deliveries later n answer earlier (List.cons.inj he).2

/-- A current request that is settled by a notice about it is no longer open. -/
theorem not_open_of_notice (h : t.Sound) {r : Request} (hr : t.requests.current = some r)
    {x : Notice} (hx : x = .withdrawn r.number ∨ ∃ answer, x = .delivered r.number answer)
    (q : Request) : ¬ Open (x :: t.log) q := by
  have hlast := ((h.current_iff r).1 hr).last
  intro hq
  rcases hx with rfl | ⟨answer, rfl⟩
  · have hqr : q = r := Option.some.inj (hq.last.symm.trans hlast)
    exact hq.not_withdrawn (hqr ▸ List.mem_cons_self)
  · have hqr : q = r := Option.some.inj (hq.last.symm.trans hlast)
    exact hq.not_delivered (hqr ▸ List.mem_cons_self)

theorem Sound.withdraw (h : t.Sound) : (t.perform .withdraw).Sound := by
  cases hc : t.requests.current with
  | none =>
    have hrun : t.requests.running = none := by rw [running, hc]; rfl
    have he : t.perform .withdraw = ⟨t.log, t.requests.withdraw⟩ := by
      simp only [perform, hrun]
      rfl
    rw [he]
    exact h.background h.coherent.withdraw hc.symm rfl
  | some r =>
    have hrun : t.requests.running = some r.number := running_eq_some.2 ⟨r, hc, rfl⟩
    have he : t.perform .withdraw = ⟨.withdrawn r.number :: t.log, t.requests.withdraw⟩ := by
      simp only [perform, hrun]
      rfl
    rw [he]
    exact {
      coherent := h.coherent.withdraw
      current_iff := fun q => by
        constructor
        · intro hq
          cases hq
        · intro hq
          exact absurd hq (not_open_of_notice h hc (.inl rfl) q)
      last_issued := h.last_issued
      issued_le := h.issued_le
      issued_order := h.issued_order
      withdrawn_le := List.forall_mem_cons.2
        ⟨Nat.le_of_eq (h.coherent.number_eq r hc), h.withdrawn_le⟩
      delivered_le := h.delivered_le
      delivered_order := h.delivered_order
      deliveries := fun later n answer earlier he => by
        cases later with
        | nil => cases he
        | cons x later => exact h.deliveries later n answer earlier (List.cons.inj he).2 }

/-- A collection passes all completions over, or delivers the current request. -/
theorem Sound.collect_cases (h : t.Sound) :
    ((∀ c ∈ t.requests.queue, t.requests.running ≠ some c.number) ∧
        t.perform .collect = ⟨t.log, { t.requests with queue := [] }⟩) ∨
      ∃ stale c rest r, t.requests.queue = stale ++ c :: rest ∧
        (∀ x ∈ stale, t.requests.running ≠ some x.number) ∧
        t.requests.current = some r ∧ r.completion? = some c ∧
        t.perform .collect = ⟨.delivered c.number c.answer :: t.log,
          { t.requests with current := none, queue := rest }⟩ := by
  rcases h.coherent.collect_cases with ⟨hall, he⟩ | ⟨stale, c, rest, r, hq, hst, hr, hrc, he⟩
  · refine .inl ⟨hall, ?_⟩
    simp only [perform, collected, he]
    rfl
  · refine .inr ⟨stale, c, rest, r, hq, hst, hr, hrc, ?_⟩
    -- The completions taken end with the one that is answered.
    have htaken : (t.requests.queue.take (t.requests.queue.length - rest.length)).getLast? =
        some c := by
      rw [hq, List.append_cons stale, List.length_append, Nat.add_sub_cancel, List.take_left,
        List.getLast?_concat]
    simp only [perform, collected, he]
    cases hres : c.result with
    | ok spans => simp [Completion.answer, hres, Except.map]
    | error error => simp [Completion.answer, hres, Except.map, htaken]

theorem Sound.collect (h : t.Sound) : (t.perform .collect).Sound := by
  have hco : (t.perform .collect).requests.Coherent := h.coherent.collect
  rcases h.collect_cases with ⟨-, he⟩ | ⟨stale, c, rest, r, -, -, hr, hrc, he⟩
  · rw [he] at hco ⊢
    exact h.background hco rfl rfl
  · rw [he] at hco ⊢
    have hopen := (h.current_iff r).1 hr
    have hnum : c.number = r.number := (Request.completion?_fields hrc).1
    have hlast : r.number = t.requests.lastNumber := h.coherent.number_eq r hr
    rw [hnum] at hco ⊢
    exact {
      coherent := hco
      current_iff := fun q => ⟨fun hq => (nomatch hq),
        fun hq => (not_open_of_notice h hr (.inr ⟨_, rfl⟩) q hq).elim⟩
      last_issued := h.last_issued
      issued_le := h.issued_le
      issued_order := h.issued_order
      withdrawn_le := h.withdrawn_le
      delivered_le := List.forall_mem_cons.2 ⟨Nat.le_of_eq hlast, h.delivered_le⟩
      delivered_order := List.pairwise_cons.2 ⟨fun n hn => by
        have hle : n ≤ r.number := hlast ▸ h.delivered_le n hn
        have hne : n ≠ r.number := fun e => hopen.not_delivered (e ▸ hn)
        exact Nat.lt_of_le_of_ne hle hne, h.delivered_order⟩
      deliveries := fun later n answer earlier hlog => by
        cases later with
        | nil =>
          cases hlog
          exact ⟨r, c, hopen, rfl, hrc, rfl⟩
        | cons x later => exact h.deliveries later n answer earlier (List.cons.inj hlog).2 }

/-- Every action keeps the invariant. -/
theorem Sound.perform (h : t.Sound) (a : Action) : (t.perform a).Sound := by
  cases a with
  | issue snapshot language => exact h.issue snapshot language
  | withdraw => exact h.withdraw
  | setExtensions extensions => exact h.background (h.coherent.extensions _) rfl rfl
  | addExtension c => exact h.background (h.coherent.extensions _) rfl rfl
  | conclude number => exact h.background (h.coherent.conclude number) rfl rfl
  | arrive number => exact h.background (h.coherent.arrive number) rfl rfl
  | collect => exact h.collect

theorem Sound.run (h : t.Sound) (actions : List Action) : (t.run actions).Sound := by
  induction actions generalizing t with
  | nil => exact h
  | cons a actions ih => exact ih (h.perform a)

/-! ## Deliveries -/

/-- A request that was superseded or withdrawn is not delivered afterwards. -/
theorem Sound.not_delivered_later (h : t.Sound) {later earlier : List Notice} {x : Notice}
    {r : Request} (hlog : t.log = later ++ x :: earlier) (hr : .issued r ∈ earlier)
    (hx : x = .withdrawn r.number ∨ ∃ q, x = .issued q) : r.number ∉ deliveredIn later := by
  intro hn
  obtain ⟨answer, hmem⟩ := mem_deliveredIn.1 hn
  obtain ⟨later₁, later₂, rfl⟩ := List.append_of_mem hmem
  rw [List.append_assoc, List.cons_append] at hlog
  obtain ⟨q, c, hopen, hqn, -, -⟩ := h.deliveries _ _ _ _ hlog
  rcases hx with rfl | ⟨p, rfl⟩
  · exact hopen.not_withdrawn (hqn ▸ mem_withdrawnIn (by simp))
  · have horder : (issuedIn (later₂ ++ .issued p :: earlier)).Pairwise (·.number > ·.number) := by
      have ho := h.issued_order
      rw [hlog] at ho
      simp only [issuedIn, List.filterMap_append, List.filterMap_cons] at ho ⊢
      exact (List.pairwise_append.1 ho).2.1
    have hlt : q.number > r.number := by
      have hlast := hopen.last
      have hre := mem_issuedIn hr
      simp only [issuedIn, List.filterMap_append, List.filterMap_cons] at horder hlast hre
      cases hl : later₂.filterMap (fun | Notice.issued r => some r | _ => none) with
      | nil =>
        rw [hl] at horder hlast
        cases hlast
        exact (List.pairwise_cons.1 horder).1 r hre
      | cons y ys =>
        rw [hl] at horder hlast
        cases hlast
        exact (List.pairwise_cons.1 horder).1 r
          (List.mem_append_right _ (List.mem_cons_of_mem _ hre))
    exact Nat.ne_of_gt hlt hqn

/-- The completion of the current request is delivered by the next collection, whatever is before
it in the queue. -/
theorem Sound.collect_of_mem (h : t.Sound) {c : Completion} (hc : c ∈ t.requests.queue)
    (hn : t.requests.running = some c.number) :
    (t.perform .collect).log = .delivered c.number c.answer :: t.log := by
  rcases h.collect_cases with ⟨hall, -⟩ | ⟨stale, d, rest, r, -, -, hr, hrd, he⟩
  · exact absurd hn (hall c hc)
  · have hnum : c.number = r.number := by
      rw [running, hr] at hn
      exact (Option.some.inj hn).symm
    have hrc := h.coherent.sent_eq c (List.mem_append_right _ hc) r hr hnum
    cases hrd.symm.trans hrc
    rw [he]

/-- The number of a current request is that of the request made last. -/
theorem Sound.last?_of_running (h : t.Sound) {n : RequestNumber}
    (hn : t.requests.running = some n) : t.requests.last? = some n := by
  obtain ⟨r, hr, rfl⟩ := running_eq_some.1 hn
  have hpos := h.coherent.number_pos r hr
  rw [h.coherent.number_eq r hr] at hpos ⊢
  exact if_neg (Nat.ne_of_gt hpos)

/-- Whatever happens to the requests of an editor, in whatever order: what is handed out is the
result of the request that is open at that moment; numbers are delivered in ascending order, each
at most once; nothing that was superseded or withdrawn is delivered; the completion of the current
request, once in the queue, is delivered by the next collection whatever is before it; and a request
is current exactly as long as it is open. -/
theorem delivers_only_current (extensions : List Contributor) (workerName : String)
    (actions : List Action) :
    let t := (start extensions workerName).run actions
    (∀ later n answer earlier, t.log = later ++ .delivered n answer :: earlier →
      ∃ r c, Open earlier r ∧ r.number = n ∧ r.completion? = some c ∧ answer = c.answer) ∧
    (deliveredIn t.log).Pairwise (· > ·) ∧
    (∀ later x earlier r, t.log = later ++ x :: earlier → .issued r ∈ earlier →
      (x = .withdrawn r.number ∨ ∃ q, x = .issued q) → r.number ∉ deliveredIn later) ∧
    (∀ c ∈ t.requests.queue, t.requests.running = some c.number →
      (t.perform .collect).log = .delivered c.number c.answer :: t.log) ∧
    ∀ n, (t.requests.running = some n ↔ ∃ r, Open t.log r ∧ r.number = n) ∧
      (t.requests.running = some n → t.requests.last? = some n) := by
  intro t
  have h : t.Sound := (sound_start extensions workerName).run actions
  refine ⟨h.deliveries, h.delivered_order, fun _ _ _ _ => h.not_delivered_later,
    fun _ => h.collect_of_mem, fun n => ⟨?_, h.last?_of_running⟩⟩
  simp only [running_eq_some, h.current_iff]

end Session

end Highlight.Requests
