import Highlight.Editor.Results

/-!
# Runs of an editor

What can happen to an editor, at two grains. An action is a call of the editor's interface, or
something a worker does in the meantime. A step is the part of a call after which the editor is at
rest again: where a call handles all that has arrived, every update and every completion is a step.

* `Editor.act`, `Editor.step`: one action, one step;
* `Editor.exists_run_act`: every action is a run of steps, so what holds after every run of steps
  holds after every sequence of calls, and in the midst of them;
* `Editor.Reaches`: runs in which the user does nothing, which is what handling arrivals comes to.
-/

namespace Highlight.Editor

/-- What the user of an editor can do with it, other than handling what has arrived. -/
inductive Operation where
  | replace (start stop : Nat) (new : String)
  | insert (offset : Nat) (new : String)
  | delete (start stop : Nat)
  | setText (new : String)
  | setCaret (offset : Nat)
  | select (start stop : Nat)
  | setEditable (value : Bool)
  | setCaretSensitive (value : Bool)
  | setLanguage (language : Language)
  | setExtensions (extensions : List Contributor)
  | addExtension (c : Contributor)
  | requestStyles
  | showStyles (styles : Spans)

/-- What can happen to an editor. -/
inductive Action where
  | operation (o : Operation)
  /-- The computation for the request with a number ends. -/
  | conclude (number : RequestNumber)
  /-- The completion for the request with a number arrives. -/
  | arrive (number : RequestNumber)
  | catchUp
  | awaitStyles

/-- What can happen to an editor, in the smallest parts. -/
inductive Step where
  | operation (o : Operation)
  | conclude (number : RequestNumber)
  | arrive (number : RequestNumber)
  /-- An update from another editor is followed, unless it is a move of the caret. -/
  | follow (update : Update)
  /-- The last of some moves of another editor's caret is followed. -/
  | followCaret (offset : Nat)
  /-- The oldest completion of the queue is handled. -/
  | receive
  /-- Updates are put into the boxes or taken out of them. -/
  | mail (inbox outbox : List Update)

variable (e : Editor)

/-- The editor after an operation that may have been refused. -/
def unlessRefused : Except Refusal Editor → Editor
  | .ok changed => changed
  | .error _ => e

/-- The editor after an operation. -/
def operate : Operation → Editor
  | .replace start stop new => e.unlessRefused (e.replace start stop new)
  | .insert offset new => e.unlessRefused (e.insert offset new)
  | .delete start stop => e.unlessRefused (e.delete start stop)
  | .setText new => e.unlessRefused (e.setText new)
  | .setCaret offset => e.unlessRefused (e.setCaret offset)
  | .select start stop => e.unlessRefused (e.select start stop)
  | .setEditable value => e.setEditable value
  | .setCaretSensitive value => e.setCaretSensitive value
  | .setLanguage language => e.setLanguage language
  | .setExtensions extensions => e.setExtensions extensions
  | .addExtension c => e.addExtension c
  | .requestStyles => e.requestStyles
  | .showStyles styles => (e.showStyles styles).2

/-- Handles the oldest completion of the queue, if there is one. -/
def receiveNext : Editor :=
  match e.requests.queue with
  | [] => e
  | c :: rest => ((e.leaving rest).handle c).2

/-- The editor after an action. -/
def act : Action → Editor
  | .operation o => e.operate o
  | .conclude number => { e with requests := e.requests.conclude number }
  | .arrive number => { e with requests := e.requests.arrive number }
  | .catchUp => e.catchUp.2
  | .awaitStyles => e.awaitStyles.2

/-- The editor after a step. -/
def step : Step → Editor
  | .operation o => e.operate o
  | .conclude number => { e with requests := e.requests.conclude number }
  | .arrive number => { e with requests := e.requests.arrive number }
  | .follow update => e.followUpdate update
  | .followCaret offset => e.followCaret offset
  | .receive => e.receiveNext
  | .mail inbox outbox => { e with inbox := inbox, outbox := outbox }

/-- The editor after some steps. -/
def run (steps : List Step) : Editor := steps.foldl step e

/-- The editor after some actions. -/
def live (actions : List Action) : Editor := actions.foldl act e

theorem run_append (first second : List Step) :
    e.run (first ++ second) = (e.run first).run second :=
  List.foldl_append

theorem run_cons (s : Step) (steps : List Step) : e.run (s :: steps) = (e.step s).run steps := rfl

/-! ## Actions are runs of steps -/

theorem requests_showDelivery (d : Delivery) : (e.showDelivery d).2.requests = e.requests := by
  unfold showDelivery
  split
  · rfl
  · split <;> rfl

theorem queue_judge (s : Requests) (c : Completion) : (s.judge c).2.queue = s.queue := by
  unfold Requests.judge
  split
  · split <;> rfl
  · rfl

/-- Handling a completion takes nothing else out of the queue. -/
theorem queue_handle (c : Completion) : (e.handle c).2.requests.queue = e.requests.queue := by
  have hq := queue_judge e.requests c
  unfold handle
  rcases hj : e.requests.judge c with ⟨answer, requests⟩
  rw [hj] at hq
  match answer with
  | .error error => exact hq
  | .ok none => exact hq
  | .ok (some d) =>
    have hr := requests_showDelivery { e with requests := requests } d
    exact (congrArg Requests.queue hr).trans hq

/-- Steps without any operation of the user lead from `e` to `e'`. -/
def Reaches (e e' : Editor) : Prop := ∃ steps, e' = e.run steps ∧ ∀ o, .operation o ∉ steps

variable {e e' : Editor}

theorem Reaches.refl (e : Editor) : e.Reaches e := ⟨[], rfl, fun _ h => nomatch h⟩

theorem Reaches.trans {m : Editor} (h : e.Reaches m) (h' : m.Reaches e') : e.Reaches e' := by
  obtain ⟨first, rfl, hfirst⟩ := h
  obtain ⟨second, rfl, hsecond⟩ := h'
  exact ⟨first ++ second, (e.run_append first second).symm,
    fun o ho => (List.mem_append.1 ho).elim (hfirst o) (hsecond o)⟩

theorem reaches_step {s : Step} (h : ∀ o, s ≠ .operation o) : e.Reaches (e.step s) :=
  ⟨[s], rfl, fun o ho => h o (List.mem_singleton.1 ho).symm⟩

theorem reaches_receiveFrom {queue : List Completion} (shown : Nat)
    (hq : e.requests.queue = queue) : e.Reaches (e.receiveFrom shown queue).2 := by
  induction queue generalizing e shown with
  | nil => exact .refl e
  | cons c rest ih =>
    have hnext : e.step .receive = ((e.leaving rest).handle c).2 := by
      simp only [step, receiveNext, hq]
    have hleft : ((e.leaving rest).handle c).2.requests.queue = rest := queue_handle ..
    have hreceive : e.Reaches (e.step .receive) := reaches_step nofun
    rw [receiveFrom]
    rcases hc : (e.leaving rest).handle c with ⟨answer, after⟩
    rw [hc] at hnext hleft
    rw [hnext] at hreceive
    cases answer with
    | error error => exact hreceive
    | ok more => exact hreceive.trans (ih (shown + more) hleft)

theorem foldl_followUpdate (e : Editor) (updates : List Update) :
    updates.foldl followUpdate e = e.run (updates.map .follow) := by
  rw [run, List.foldl_map]
  rfl

theorem reaches_followUpdates (e : Editor) (updates : List Update) :
    e.Reaches (updates.foldl followUpdate e) :=
  ⟨updates.map .follow, e.foldl_followUpdate updates, by simp⟩

theorem reaches_followInbox (e : Editor) : e.Reaches e.followInbox := by
  have hemptied : e.Reaches { e with inbox := [] } :=
    reaches_step (s := .mail [] e.outbox) nofun
  have hfollowed := hemptied.trans (reaches_followUpdates _ e.inbox)
  simp only [followInbox]
  split
  · exact hfollowed.trans (reaches_step (s := .followCaret _) nofun)
  · exact hfollowed

theorem reaches_catchUp (e : Editor) : e.Reaches e.catchUp.2 :=
  e.reaches_followInbox.trans (reaches_receiveFrom 0 rfl)

theorem reaches_finish (e : Editor) : e.Reaches e.finish := by
  simp only [finish, Requests.finish]
  split
  · rename_i number _
    have hconcluded : e.Reaches (e.step (.conclude number)) :=
      reaches_step nofun
    exact hconcluded.trans (reaches_step (s := .arrive number) nofun)
  · exact .refl e

theorem reaches_awaitStyles (e : Editor) : e.Reaches e.awaitStyles.2 := by
  have hcatch := e.reaches_catchUp
  unfold awaitStyles
  split
  · rename_i h
    rwa [h] at hcatch
  · rename_i shown after h
    rw [h] at hcatch
    split
    · exact hcatch
    · exact hcatch.trans (after.reaches_finish.trans (reaches_receiveFrom shown rfl))

/-- Every action is a run of steps, in which the user does nothing but the action. -/
theorem exists_run_act_of (e : Editor) (a : Action) :
    ∃ steps, e.act a = e.run steps ∧ ∀ o, .operation o ∈ steps → a = .operation o := by
  have hreaches : ∀ {e' : Editor}, e.Reaches e' →
      ∃ steps, e' = e.run steps ∧ ∀ o, .operation o ∈ steps → a = .operation o :=
    fun ⟨steps, he, ho⟩ => ⟨steps, he, fun o h => absurd h (ho o)⟩
  cases a with
  | operation o =>
    refine ⟨[.operation o], rfl, fun o' h => ?_⟩
    cases List.mem_singleton.1 h
    rfl
  | conclude number => exact hreaches (reaches_step (s := .conclude number) nofun)
  | arrive number => exact hreaches (reaches_step (s := .arrive number) nofun)
  | catchUp => exact hreaches e.reaches_catchUp
  | awaitStyles => exact hreaches e.reaches_awaitStyles

/-- Every action is a run of steps. -/
theorem exists_run_act (e : Editor) (a : Action) : ∃ steps, e.act a = e.run steps := by
  obtain ⟨steps, he, -⟩ := e.exists_run_act_of a
  exact ⟨steps, he⟩

/-- What a single step keeps, a run keeps. -/
theorem run_induction {P : Editor → Prop} (h : P e) (hstep : ∀ e s, P e → P (e.step s))
    (steps : List Step) : P (e.run steps) := by
  induction steps generalizing e with
  | nil => exact h
  | cons s steps ih => exact ih (hstep e s h)

end Highlight.Editor
