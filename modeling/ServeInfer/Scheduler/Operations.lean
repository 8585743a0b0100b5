import ServeInfer.Scheduler.Types

/-!
# The scheduler's methods and callbacks

Every method of `scheduler.js` is a function of the state, with `Date.now()`
read from a clock that is indexed by the number of readings so far. A step is
one callback of the event loop; `_schedule` runs to completion inside it.
-/

namespace ServeInfer.Scheduler

variable {α : Type}

/-- `normalizePriority`; an absent or empty priority reads as `normal`. -/
def normalizePriority (priority : String) : Priority :=
  let value := (if priority = "" then "normal" else priority).toLower
  if value = "high" then .high else if value = "low" then .low else .normal

def basePriority : Priority → ℤ
  | .high => 300
  | .normal => 200
  | .low => 100

def effectivePriority (o : Options) (job : Job) (now : ℤ) : ℤ :=
  let ageBoost := ⌊((now - job.createdAt : ℤ) : ℚ) / o.agingMs⌋
  basePriority job.priority + ageBoost

/-- The comparator of both sorts: higher effective priority first, then earlier arrival. -/
def compareJobs (o : Options) (now : ℤ) (a b : Job) : ℤ :=
  let p := effectivePriority o b now - effectivePriority o a now
  if p ≠ 0 then p else a.createdAt - b.createdAt

/-- `Array.prototype.sort` is stable, and so is insertion from the back. -/
def sortJobs (o : Options) (now : ℤ) (jobs : List Job) : List Job :=
  jobs.insertionSort fun a b => compareJobs o now a b ≤ 0

def canRun (o : Options) (t : Tables) (job : Job) : Bool :=
  if t.active.size ≥ o.maxSlots then false
  else (t.perMfeActive.get? job.mfeId).getD 0 < o.maxPerMfe

def pickNextJob (o : Options) (now : ℤ) (t : Tables) : Option Job :=
  let candidates := t.queue.filter (canRun o t)
  (sortJobs o now candidates).head?

namespace State

def log (s : State α) (e : Event α) : State α := { s with trace := s.trace ++ [e] }

/-- One more reading of the clock has been taken. -/
def tick (s : State α) : State α := { s with reads := s.reads + 1 }

def setCell (s : State α) (id : ℕ) (cell : Cell) : State α :=
  { s with cells := Function.update s.cells id cell }

def setRun (s : State α) (k : ℕ) (f : Run α → Run α) : State α :=
  { s with runs := s.runs.modify k f }

/-- No reaction of any promise chain is waiting, so the event loop may turn to a timer. -/
def idle (s : State α) : Bool := s.runs.all fun r => !r.stage.pending

end State

/-- `_notify`. -/
def notify (s : State α) (job : Job) (status : Status) : State α :=
  if job.onStatus then s.log (.status job.id status) else s

/-- `clearTimeout(job.queueTimer)`. -/
def clearQueueTimer (s : State α) (job : Job) : State α :=
  s.setCell job.id { s.cells job.id with queueTimer := false }

/-- `clearTimeout(job.execTimer)`: the handle is that of the job's latest `_run` call. -/
def clearExecTimer (s : State α) (job : Job) : State α :=
  match (s.cells job.id).execTimer with
  | none => s
  | some k => s.setRun k fun r => { r with timer := false }

/-- `job.abortController.abort()`. -/
def abort (s : State α) (job : Job) : State α :=
  s.setCell job.id { s.cells job.id with aborted := true }

/-- Splice out the first queued job with this id, if there is one. -/
def spliceQueue (s : State α) (requestId : String) : State α :=
  { s with queue := s.queue.eraseP fun item => item.requestId = requestId }

variable (o : Options) (clock : ℕ → ℤ)

/-- `_evictDone`. -/
def evictDone (s : State α) : State α :=
  let cutoff : ℚ := clock s.reads - o.doneTtlMs
  let kept := s.done.dropWhile fun e => ¬ (e.2.finishedAt : ℚ) ≥ cutoff
  { s.tick with done := kept.dropOldest (kept.size - o.doneMaxEntries) }

/-- `_recordDone` on behalf of a job; the entry's `finishedAt` is read first. -/
def recordDone (s : State α) (job : Job) (entry : ℤ → DoneEntry) : State α :=
  let e := entry (clock s.reads)
  let s := s.tick
  evictDone o clock { s.log (.record job.id e) with done := s.done.set job.requestId e }

/-- `getQueuePosition`, without the clock reading it takes. -/
def getQueuePosition (now : ℤ) (queue : List Job) (requestId : String) : ℤ :=
  match (sortJobs o now queue).findIdx? fun job => job.requestId = requestId with
  | some idx => idx + 1
  | none => -1

/-- `_estimateWaitMs`. -/
def estimateWaitMs (avgDurationMs : ℚ) (position : ℤ) : ℚ :=
  if position ≤ 0 then 0
  else
    let slots := max 1 o.maxSlots
    let batchesAhead := ⌈(position : ℚ) / slots⌉
    batchesAhead * avgDurationMs

/-- `_run` up to the promise chain, which its `starting` stage stands for. -/
def run (s : State α) (job : Job) : State α :=
  let startedAt := clock s.reads
  let s := clearQueueTimer s.tick job
  let s := { s with
    active := s.active.set job.requestId job
    perMfeActive :=
      s.perMfeActive.set job.mfeId ((s.perMfeActive.get? job.mfeId).getD 0 + 1) }
  let s := notify s job .started
  let s := s.setCell job.id { s.cells job.id with execTimer := some s.runs.length }
  { s with
    runs := s.runs ++
      [{ job := job, startedAt := startedAt, released := false, timer := true,
         stage := .starting }] }

/-- The body of `_schedule`'s loop once a job is picked. -/
def startPicked (s : State α) (job : Job) : State α :=
  run clock (spliceQueue (s.log (.picked job s.toTables)) job.requestId) job

/-- `_schedule`, with its loop bounded by the fuel. -/
def scheduleLoop : ℕ → State α → State α
  | 0, s => s
  | fuel + 1, s =>
      if s.active.size < o.maxSlots then
        match pickNextJob o (clock s.reads) s.toTables with
        | none => s.tick
        | some job => scheduleLoop fuel (startPicked clock s.tick job)
      else s

/-- Every round takes one job off the queue, so the queue's length bounds the rounds. -/
def schedule (s : State α) : State α := scheduleLoop o clock (s.queue.length + 1) s

/-- `releaseSlot` past its guard and before it calls `_schedule`. -/
def freeSlot (s : State α) (k : ℕ) (r : Run α) : State α :=
  let s := s.setRun k fun r => { r with released := true }
  let s := clearExecTimer s r.job
  let duration := clock s.reads - r.startedAt
  let s := s.tick
  let current := (s.perMfeActive.get? r.job.mfeId).getD 0
  { s with
    avgDurationMs := ⌊s.avgDurationMs * (7 / 10) + duration * (3 / 10) + 1 / 2⌋
    active := s.active.delete r.job.requestId
    perMfeActive :=
      if current ≤ 1 then s.perMfeActive.delete r.job.mfeId
      else s.perMfeActive.set r.job.mfeId (current - 1) }

/-- `releaseSlot` of the `k`-th `_run` call. -/
def releaseSlot (s : State α) (k : ℕ) : State α :=
  match s.runs[k]? with
  | none => s
  | some r => if r.released then s else schedule o clock (freeSlot clock s k r)

/-- `enqueue` up to its call of `_schedule`. -/
def accept (s : State α) (req : Request) : State α :=
  let job : Job :=
    { id := s.jobs.length, requestId := req.requestId, mfeId := req.mfeId,
      priority := normalizePriority req.priority, onStatus := req.onStatus,
      createdAt := clock s.reads }
  let s := s.tick
  let s := s.setCell job.id { queueTimer := true }
  let s := { s with jobs := s.jobs ++ [job], queue := s.queue ++ [job] }
  let position := getQueuePosition o (clock s.reads) s.queue req.requestId
  let s := s.tick
  let waitPosition := getQueuePosition o (clock s.reads) s.queue req.requestId
  let s := s.tick
  notify s job (.queued position (estimateWaitMs o s.avgDurationMs waitPosition))

/-- `enqueue`; a full queue throws and leaves the scheduler as it was. -/
def enqueue (s : State α) (req : Request) : Except SchedulerError (State α) :=
  if s.queue.length ≥ o.maxQueue then
    .error (.schedulerOverloaded req.requestId o.maxQueue)
  else .ok (schedule o clock (accept o clock s req))

/-- The queue timer's callback once the queue search has hit a job. -/
def expireQueued (s : State α) (job : Job) : State α :=
  let s := spliceQueue (s.log (.expiring job s.toTables)) job.requestId
  let waitedMs := clock s.reads - job.createdAt
  let s := notify s.tick job (.timeout waitedMs true)
  let s := s.log (.settle job.id (.rejected (.scheduler (.queueTimeout job.requestId waitedMs))))
  recordDone o clock s job fun finishedAt =>
    { state := .timeout, requestId := job.requestId, waitedMs := some waitedMs,
      retryable := some true, finishedAt := finishedAt }

/-- The queue timer of a job fires. -/
def queueTimer (s : State α) (job : Job) : State α :=
  let s := clearQueueTimer s job
  if s.queue.any fun item => item.requestId = job.requestId then expireQueued o clock s job
  else s

/-- The branch of `cancel` that finds the job in the queue. -/
def cancelQueued (s : State α) (job : Job) : State α :=
  let s := spliceQueue s job.requestId
  let s := clearExecTimer (clearQueueTimer s job) job
  let s := notify s job (.cancelled "user_cancelled")
  let s := s.log
    (.settle job.id (.rejected (.scheduler (.requestCancelled job.requestId (some "queued")))))
  recordDone o clock s job fun finishedAt =>
    { state := .cancelled, requestId := job.requestId, finishedAt := finishedAt }

/-- The answer of `cancel`. -/
inductive CancelResult
  | queued
  | active
  | done (state : DoneState)
  | notFound
  deriving DecidableEq, Repr

def cancel (s : State α) (requestId : String) : State α × CancelResult :=
  match s.queue.find? fun job => job.requestId = requestId with
  | some job => (cancelQueued o clock s job, .queued)
  | none =>
      match s.active.get? requestId with
      | some activeJob => (abort s activeJob, .active)
      | none =>
          match s.done.get? requestId with
          | some doneState => (s, .done doneState.state)
          | none => (s, .notFound)

/-- The execution timer's callback up to its call of `releaseSlot`. -/
def timeOut (s : State α) (k : ℕ) (r : Run α) : State α :=
  let s := s.setRun k fun r => { r with timer := false }
  let s := s.setCell r.job.id { s.cells r.job.id with execTimedOut := true }
  let ranMs := clock s.reads - r.startedAt
  let s := notify s.tick r.job (.execTimeout "execution" ranMs true)
  let s := abort s r.job
  let s := s.log
    (.settle r.job.id (.rejected (.scheduler (.execTimeout r.job.requestId ranMs))))
  recordDone o clock s r.job fun finishedAt =>
    { state := .timeout, requestId := r.job.requestId, phase := some "execution",
      ranMs := some ranMs, retryable := some true, finishedAt := finishedAt }

/-- The `.then` reaction to a fulfilled `execute`. -/
def onFulfilled (s : State α) (job : Job) (result : α) : State α :=
  if (s.cells job.id).execTimedOut then s
  else
    recordDone o clock (s.log (.settle job.id (.resolved result))) job fun finishedAt =>
      { state := .done, requestId := job.requestId, finishedAt := finishedAt }

/-- What an aborted job is rejected with. -/
def abortReason (job : Job) : Thrown α → Rejection α
  | .error message => .thrown (.error message)
  | .other _ => .scheduler (.requestCancelled job.requestId none)

/-- The `message` of a `failed` entry. -/
def failureMessage : Thrown α → String
  | .error message => message
  | .other _ => "unknown_error"

/-- The `.catch` reaction to a rejected `execute`. -/
def onRejected (s : State α) (job : Job) (err : Thrown α) : State α :=
  if (s.cells job.id).execTimedOut then s
  else if (s.cells job.id).aborted then
    recordDone o clock (s.log (.settle job.id (.rejected (abortReason job err)))) job
      fun finishedAt =>
        { state := .cancelled, requestId := job.requestId, finishedAt := finishedAt }
  else
    recordDone o clock (s.log (.settle job.id (.rejected (.thrown err)))) job
      fun finishedAt =>
        { state := .failed, requestId := job.requestId, finishedAt := finishedAt,
          message := some (failureMessage err) }

/-- The reaction of the `k`-th promise chain to the settlement of its `execute`. -/
def react (s : State α) (k : ℕ) (r : Run α) (result : Except (Thrown α) α) : State α :=
  let s := s.setRun k fun r => { r with stage := .reacted }
  match result with
  | .ok value => onFulfilled o clock s r.job value
  | .error err => onRejected o clock s r.job err

/-- What may happen next: a call of a method, a timer, or a step of a promise chain. -/
inductive Action (α : Type)
  | enqueue (req : Request)
  | cancel (requestId : String)
  | queueTimer (job : ℕ)
  | execTimer (run : ℕ)
  | callExecute (run : ℕ)
  | settleExecute (run : ℕ) (result : Except (Thrown α) α)
  | react (run : ℕ)
  | finalize (run : ℕ)

/-- One step of the event loop. A timer fires only while armed and with no microtask waiting. -/
def step (s : State α) : Action α → Option (State α)
  | .enqueue req =>
      match enqueue o clock s req with
      | .error _ => some s
      | .ok s' => some s'
  | .cancel requestId => some (cancel o clock s requestId).1
  | .queueTimer id =>
      match s.jobs[id]? with
      | some job =>
          if (s.cells id).queueTimer && s.idle then some (queueTimer o clock s job) else none
      | none => none
  | .execTimer k =>
      match s.runs[k]? with
      | some r =>
          if r.timer && s.idle then some (releaseSlot o clock (timeOut o clock s k r) k)
          else none
      | none => none
  | .callExecute k =>
      match s.runs[k]? with
      | some { stage := .starting, job := job, .. } =>
          some ((s.setRun k fun r => { r with stage := .running }).log (.execute job.id))
      | _ => none
  | .settleExecute k result =>
      match s.runs[k]? with
      | some { stage := .running, .. } =>
          some (s.setRun k fun r => { r with stage := .settled result })
      | _ => none
  | .react k =>
      match s.runs[k]? with
      | some r =>
          match r.stage with
          | .settled result => some (react o clock s k r result)
          | _ => none
      | none => none
  | .finalize k =>
      match s.runs[k]? with
      | some { stage := .reacted, .. } =>
          some (releaseSlot o clock (s.setRun k fun r => { r with stage := .finished }) k)
      | _ => none

/-- A run of the scheduler from its construction. -/
abbrev exec (as : List (Action α)) : Option (State α) :=
  Machine.exec (step o clock) (init o) as

end ServeInfer.Scheduler
