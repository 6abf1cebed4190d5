import Highlight.Computation

/-!
# Requests for styles

An editor has at most one current request for styles. A new request supersedes the one before, which
is cancelled. Computations run on workers of their own and send what they computed to a queue, which
the editor empties when it likes. A worker looks at its token when its computation ends, and sends
nothing if its request was cancelled by then; the request may still be cancelled while the completion
is on its way. Whether a completion is wanted is therefore decided by the editor: only that of the
current request is. Every request gets its worker: that a thread cannot be started for lack of resources
is left out.

* `Requests.issue`, `Requests.withdraw`: change which request is current;
* `Requests.conclude`, `Requests.arrive`: what a worker does, at any time after the request;
* `Requests.judge`, `Requests.collect`: take completions from the queue.
-/

namespace Highlight

/-- All that a computation of styles depends on, as it was when the request was made. -/
structure Request where
  number : RequestNumber
  snapshot : Snapshot
  language : Language
  extensions : List Contributor
  worker : String

/-- What a worker sends when its computation has ended. -/
structure Completion where
  number : RequestNumber
  version : Nat
  length : Nat
  result : Except StylingError Spans

namespace Request

/-- The computation asked for. -/
def compute (r : Request) : Computation :=
  highlight r.number r.worker r.snapshot r.language r.extensions false

/-- What the worker sends at the end of the computation: nothing if the request was cancelled
meanwhile, and otherwise the result, where a fault has become an error. -/
def completion? (r : Request) : Option Completion :=
  let c := r.compute
  if c.cancelled then none
  else
    let result := match c.result with
      | .ok result => result
      | .error fault => .error (.languageFailed r.language.name fault.message)
    some ⟨r.number, r.snapshot.version, r.snapshot.length, result⟩

end Request

/-- Styles that may be shown. -/
structure Delivery where
  number : RequestNumber
  version : Nat
  /-- The length of the text that the styles were computed for. -/
  length : Nat
  spans : Spans

/-- The requests of one editor. -/
structure Requests where
  /-- The contributors that later requests will capture beside their language's own. -/
  extensions : List Contributor
  /-- The request whose styles are wanted. -/
  current : Option Request
  /-- The number of requests made so far, which is the number of the last one. -/
  lastNumber : RequestNumber
  /-- What the names of the workers begin with. -/
  workerName : String
  /-- The requests whose tokens say that they were cancelled. -/
  cancelled : List RequestNumber
  /-- The requests whose computations have not ended. -/
  working : List Request
  /-- The completions that workers have still to send. -/
  outgoing : List Completion
  /-- The completions that have arrived, the oldest first. -/
  queue : List Completion

namespace Requests

/-- What the names of workers begin with unless something else is asked for. -/
def defaultWorkerName : String := "ide-highlight"

/-- No requests made yet. -/
def new (extensions : List Contributor) (workerName : String) : Requests :=
  ⟨extensions, none, 0, workerName, [], [], [], []⟩

/-- The number of the current request. -/
def running (s : Requests) : Option RequestNumber := s.current.map (·.number)

/-- Whether no request is current. -/
def isIdle (s : Requests) : Bool := s.current.isNone

/-- The number of the request made last. -/
def last? (s : Requests) : Option RequestNumber :=
  if s.lastNumber = 0 then none else some s.lastNumber

/-- The name of the worker of the request with a number. -/
def workerOf (s : Requests) (number : RequestNumber) : String := s!"{s.workerName}-{number}"

/-- The fault that the first request ended in, if it could not be given a worker. Nothing that
happens afterwards can be observed. -/
def fault? (s : Requests) : Option Fault :=
  if s.lastNumber ≠ 0 ∧ containsZero s.workerName then some (.zeroInName (s.workerOf 1)) else none

/-- The state as shown in diagnostics. -/
def describe (s : Requests) : String :=
  match s.running with
  | some number => s!"Running(RequestId({number}))"
  | none => "Idle"

/-- Replaces the contributors that later requests will capture. -/
def setExtensions (s : Requests) (extensions : List Contributor) : Requests :=
  { s with extensions := extensions }

/-- Adds a contributor behind those that later requests will capture. -/
def addExtension (s : Requests) (c : Contributor) : Requests :=
  { s with extensions := s.extensions ++ [c] }

/-- Cancels the current request, if there is one. -/
def withdraw (s : Requests) : Requests :=
  { s with current := none, cancelled := s.running.toList ++ s.cancelled }

/-- Asks for the styles of a snapshot; the new request supersedes the current one. -/
def issue (s : Requests) (snapshot : Snapshot) (language : Language) : Requests :=
  let number := s.lastNumber + 1
  let request := ⟨number, snapshot, language, s.extensions, s.workerOf number⟩
  { s.withdraw with
    current := some request
    lastNumber := number
    working := s.working ++ [request] }

/-! ## Workers -/

/-- The computation for a request ends. If the request was cancelled by then, its result is dropped;
otherwise its completion is to be sent. -/
def conclude (s : Requests) (number : RequestNumber) : Requests :=
  { s with
    working := s.working.filter (·.number != number)
    outgoing :=
      if number ∈ s.cancelled then s.outgoing
      else s.outgoing ++ (s.working.filter (·.number == number)).filterMap (·.completion?) }

/-- The completion for a request arrives, if its worker has one to send. -/
def arrive (s : Requests) (number : RequestNumber) : Requests :=
  { s with
    outgoing := s.outgoing.filter (·.number != number)
    queue := s.queue ++ s.outgoing.filter (·.number == number) }

/-- The worker of the current request comes to its end and sends its completion, if it has not
done so before. -/
def finish (s : Requests) : Requests :=
  match s.running with
  | some number => (s.conclude number).arrive number
  | none => s

/-! ## Completions -/

/-- Decides about a completion: styles to show or an error to report if it belongs to the current
request, which is settled by it, and nothing otherwise. -/
def judge (s : Requests) (c : Completion) : Except StylingError (Option Delivery) × Requests :=
  if s.running = some c.number ∧ c.number ∉ s.cancelled then
    let s := { s with current := none }
    match c.result with
    | .ok spans => (.ok (some ⟨c.number, c.version, c.length, spans⟩), s)
    | .error (.cancelled _) => (.ok none, s)
    | .error error => (.error error, s)
  else (.ok none, s)

/-- Takes completions from a queue up to the first that is wanted. -/
def collectFrom (s : Requests) : List Completion → Except StylingError (Option Delivery) × Requests
  | [] => (.ok none, s)
  | c :: rest =>
    match { s with queue := rest }.judge c with
    | (.ok none, s) => s.collectFrom rest
    | answer => answer

/-- Takes completions that have arrived up to the first that is wanted, without waiting for any. -/
def collect (s : Requests) : Except StylingError (Option Delivery) × Requests :=
  s.collectFrom s.queue

end Requests

end Highlight
