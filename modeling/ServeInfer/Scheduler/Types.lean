import ServeInfer.Lib.Machine
import ServeInfer.Lib.OrderedMap
import Mathlib.Data.Int.ConditionallyCompleteOrder
import Mathlib.Data.Rat.Floor
import Mathlib.Data.List.Sort

/-!
# Data of the shell-app scheduler

`scheduler.js` keeps a queue array, three maps and, inside the job objects and
the closures of `_run`, a handful of mutable flags. Jobs and `_run` calls are
numbered in the order they are created, which stands for object identity.
-/

namespace ServeInfer.Scheduler

/-- The constructor's options. Limits are counts; every duration is any finite number. -/
structure Options where
  maxSlots : ℕ := 4
  maxPerMfe : ℕ := 2
  maxQueue : ℕ := 20
  agingMs : ℚ := 15000
  defaultDurationMs : ℚ := 8000
  doneTtlMs : ℚ := 300000
  doneMaxEntries : ℕ := 500

inductive Priority
  | high
  | normal
  | low
  deriving DecidableEq, Repr

/-- The immutable part of a job object; `onStatus` says whether a callback was supplied. -/
structure Job where
  id : ℕ
  requestId : String
  mfeId : String
  priority : Priority
  onStatus : Bool
  createdAt : ℤ
  deriving DecidableEq, Repr

/-- The arguments of `enqueue`; an absent priority is the empty string. -/
structure Request where
  requestId : String
  mfeId : String
  priority : String := ""
  onStatus : Bool := true
  deriving DecidableEq, Repr

/-- What an `execute` promise may reject with: an `Error` instance or any other value. -/
inductive Thrown (α : Type)
  | error (message : String)
  | other (value : α)
  deriving DecidableEq

/-- The four `SchedulerError`s with the details each one carries. -/
inductive SchedulerError
  | schedulerOverloaded (requestId : String) (maxQueue : ℕ)
  | queueTimeout (requestId : String) (waitedMs : ℤ)
  | requestCancelled (requestId : String) (state : Option String)
  | execTimeout (requestId : String) (ranMs : ℤ)
  deriving DecidableEq

namespace SchedulerError

def code : SchedulerError → String
  | schedulerOverloaded .. => "scheduler_overloaded"
  | queueTimeout .. => "queue_timeout"
  | requestCancelled .. => "request_cancelled"
  | execTimeout .. => "exec_timeout"

/-- The `status` property; a cancellation carries none. -/
def status : SchedulerError → Option ℕ
  | schedulerOverloaded .. => some 429
  | queueTimeout .. => some 408
  | requestCancelled .. => none
  | execTimeout .. => some 504

/-- The `details.retryable` flag. -/
def retryable : SchedulerError → Bool
  | queueTimeout .. => true
  | execTimeout .. => true
  | _ => false

end SchedulerError

/-- The argument of a job's `reject`. -/
inductive Rejection (α : Type)
  | scheduler (err : SchedulerError)
  | thrown (err : Thrown α)
  deriving DecidableEq

/-- A call of a job's `resolve` or `reject`. -/
inductive Settlement (α : Type)
  | resolved (result : α)
  | rejected (reason : Rejection α)
  deriving DecidableEq

/-- The payloads of `_notify`; only the execution timeout names its phase. -/
inductive Status
  | queued (position : ℤ) (estimatedWaitMs : ℚ)
  | started
  | cancelled (reason : String)
  | timeout (waitedMs : ℤ) (retryable : Bool)
  | execTimeout (phase : String) (ranMs : ℤ) (retryable : Bool)
  deriving DecidableEq

inductive DoneState
  | timeout
  | cancelled
  | done
  | failed
  deriving DecidableEq, Repr

/-- An entry of the `done` map. -/
structure DoneEntry where
  state : DoneState
  requestId : String
  finishedAt : ℤ
  phase : Option String := none
  waitedMs : Option ℤ := none
  ranMs : Option ℤ := none
  retryable : Option Bool := none
  message : Option String := none
  deriving DecidableEq, Repr

/-- The queue and the two maps that admission reads. -/
structure Tables where
  queue : List Job := []
  active : OrderedMap String Job := ∅
  perMfeActive : OrderedMap String ℕ := ∅
  deriving DecidableEq

/-- One entry of the history. `picked` and `expiring` keep the tables read just before a job
is taken off the queue by `_schedule` or by its queue timer. -/
inductive Event (α : Type)
  | status (job : ℕ) (status : Status)
  | settle (job : ℕ) (outcome : Settlement α)
  | record (job : ℕ) (entry : DoneEntry)
  | execute (job : ℕ)
  | picked (job : Job) (before : Tables)
  | expiring (job : Job) (before : Tables)
  deriving DecidableEq

/-- Where the promise chain of one `_run` call stands. -/
inductive Stage (α : Type)
  | starting
  | running
  | settled (result : Except (Thrown α) α)
  | reacted
  | finished
  deriving DecidableEq

/-- A stage whose next reaction is a queued microtask, so no timer can fire before it. -/
def Stage.pending {α : Type} : Stage α → Bool
  | .starting => true
  | .settled _ => true
  | .reacted => true
  | _ => false

/-- One call of `_run`: its closure variables and its execution timer. -/
structure Run (α : Type) where
  job : Job
  startedAt : ℤ
  released : Bool
  timer : Bool
  stage : Stage α
  deriving DecidableEq

/-- The mutable fields of a job object. `execTimer` names the `_run` call that armed it last. -/
structure Cell where
  queueTimer : Bool := false
  aborted : Bool := false
  execTimer : Option ℕ := none
  execTimedOut : Bool := false
  deriving DecidableEq, Repr

/-- The scheduler, the objects it has created, the number of clock readings and the history. -/
structure State (α : Type) extends Tables where
  done : OrderedMap String DoneEntry := ∅
  avgDurationMs : ℚ
  jobs : List Job := []
  cells : ℕ → Cell := fun _ => {}
  runs : List (Run α) := []
  reads : ℕ := 0
  trace : List (Event α) := []

/-- The state the constructor leaves. -/
def init {α : Type} (o : Options) : State α where
  avgDurationMs := o.defaultDurationMs

end ServeInfer.Scheduler
