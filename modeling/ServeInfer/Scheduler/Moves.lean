import ServeInfer.Scheduler.Operations

/-!
# What one step of the scheduler can do

Each method is brought into the form of one record update, and the event-loop
step is split into moves: the synchronous part of a callback, and the rounds of
`_schedule` that follow it. A property kept by every move is kept by every run.
-/

namespace ServeInfer.Scheduler

variable {α : Type} (o : Options) (clock : ℕ → ℤ)

/-- The history entry of a `_notify` call: none when the job has no callback. -/
def notified (job : Job) (status : Status) : List (Event α) :=
  if job.onStatus then [.status job.id status] else []

theorem notify_eq (s : State α) (job : Job) (status : Status) :
    notify s job status = { s with trace := s.trace ++ notified job status } := by
  unfold notify notified
  split <;> simp [State.log]

/-- The `done` map after `_recordDone`, given the reading its eviction compares with. -/
def recordedDone (done : OrderedMap String DoneEntry) (job : Job) (e : DoneEntry) (now : ℤ) :
    OrderedMap String DoneEntry :=
  let kept := (done.set job.requestId e).dropWhile fun e =>
    ¬ (e.2.finishedAt : ℚ) ≥ now - o.doneTtlMs
  kept.dropOldest (kept.size - o.doneMaxEntries)

theorem recordDone_eq (s : State α) (job : Job) (entry : ℤ → DoneEntry) :
    recordDone o clock s job entry =
      { s with
        reads := s.reads + 2
        trace := s.trace ++ [.record job.id (entry (clock s.reads))]
        done := recordedDone o s.done job (entry (clock s.reads)) (clock (s.reads + 1)) } := rfl

/-- The runs after `clearTimeout(job.execTimer)`. -/
def clearedRuns (runs : List (Run α)) : Option ℕ → List (Run α)
  | none => runs
  | some k => runs.modify k fun r => { r with timer := false }

theorem clearExecTimer_eq (s : State α) (job : Job) :
    clearExecTimer s job = { s with runs := clearedRuns s.runs (s.cells job.id).execTimer } := by
  unfold clearExecTimer clearedRuns
  cases (s.cells job.id).execTimer with
  | none => rfl
  | some k => rfl

/-- The job object `enqueue` creates. -/
def newJob (s : State α) (req : Request) : Job where
  id := s.jobs.length
  requestId := req.requestId
  mfeId := req.mfeId
  priority := normalizePriority req.priority
  onStatus := req.onStatus
  createdAt := clock s.reads

/-- The payload of the `queued` notification. -/
def queuedStatus (s : State α) (req : Request) : Status :=
  let queue := s.queue ++ [newJob clock s req]
  .queued (getQueuePosition o (clock (s.reads + 1)) queue req.requestId)
    (estimateWaitMs o s.avgDurationMs
      (getQueuePosition o (clock (s.reads + 2)) queue req.requestId))

theorem accept_eq (s : State α) (req : Request) :
    accept o clock s req =
      { s with
        queue := s.queue ++ [newJob clock s req]
        jobs := s.jobs ++ [newJob clock s req]
        cells := Function.update s.cells s.jobs.length { queueTimer := true }
        reads := s.reads + 3
        trace := s.trace ++ notified (newJob clock s req) (queuedStatus o clock s req) } := by
  simp only [accept, notify_eq]
  rfl

/-- The queue without the first job of the given request id. -/
def unqueue (queue : List Job) (requestId : String) : List Job :=
  queue.eraseP fun item => item.requestId = requestId

/-- The `_run` call that starts a job, as it is first entered into the list of calls. -/
def newRun (startedAt : ℤ) (job : Job) : Run α where
  job := job
  startedAt := startedAt
  released := false
  timer := true
  stage := .starting

theorem startPicked_eq (s : State α) (job : Job) :
    startPicked clock s job =
      { s with
        queue := unqueue s.queue job.requestId
        active := s.active.set job.requestId job
        perMfeActive :=
          s.perMfeActive.set job.mfeId ((s.perMfeActive.get? job.mfeId).getD 0 + 1)
        cells := Function.update s.cells job.id
          { s.cells job.id with queueTimer := false, execTimer := some s.runs.length }
        runs := s.runs ++ [newRun (clock s.reads) job]
        reads := s.reads + 1
        trace := s.trace ++ .picked job s.toTables :: notified job .started } := by
  simp only [startPicked, run, notify_eq, State.log, State.setCell, spliceQueue, clearQueueTimer,
    State.tick, Function.update_self, Function.update_idem, List.append_assoc,
    List.singleton_append]
  rfl

theorem expireQueued_eq (s : State α) (job : Job) :
    expireQueued o clock s job =
      { s with
        queue := unqueue s.queue job.requestId
        reads := s.reads + 3
        trace := s.trace ++ .expiring job s.toTables ::
          (notified job (.timeout (clock s.reads - job.createdAt) true) ++
            [.settle job.id (.rejected (.scheduler
                (.queueTimeout job.requestId (clock s.reads - job.createdAt)))),
              .record job.id
                { state := .timeout, requestId := job.requestId,
                  waitedMs := some (clock s.reads - job.createdAt), retryable := some true,
                  finishedAt := clock (s.reads + 1) }])
        done := recordedDone o s.done job
          { state := .timeout, requestId := job.requestId,
            waitedMs := some (clock s.reads - job.createdAt), retryable := some true,
            finishedAt := clock (s.reads + 1) } (clock (s.reads + 2)) } := by
  simp only [expireQueued, recordDone_eq, notify_eq, State.log, State.tick, spliceQueue,
    List.append_assoc, List.cons_append, List.nil_append, unqueue]

theorem cancelQueued_eq (s : State α) (job : Job) :
    cancelQueued o clock s job =
      { s with
        queue := unqueue s.queue job.requestId
        cells := Function.update s.cells job.id { s.cells job.id with queueTimer := false }
        runs := clearedRuns s.runs (s.cells job.id).execTimer
        reads := s.reads + 2
        trace := s.trace ++ (notified job (.cancelled "user_cancelled") ++
          [.settle job.id (.rejected (.scheduler
              (.requestCancelled job.requestId (some "queued")))),
            .record job.id
              { state := .cancelled, requestId := job.requestId, finishedAt := clock s.reads }])
        done := recordedDone o s.done job
          { state := .cancelled, requestId := job.requestId, finishedAt := clock s.reads }
          (clock (s.reads + 1)) } := by
  simp only [cancelQueued, recordDone_eq, notify_eq, clearExecTimer_eq, State.log, spliceQueue,
    clearQueueTimer, State.setCell, Function.update_self, List.append_assoc, List.cons_append,
    List.nil_append, unqueue]

theorem timeOut_eq (s : State α) (k : ℕ) (r : Run α) :
    timeOut o clock s k r =
      { s with
        cells := Function.update s.cells r.job.id
          { s.cells r.job.id with execTimedOut := true, aborted := true }
        runs := s.runs.modify k fun r => { r with timer := false }
        reads := s.reads + 3
        trace := s.trace ++
          (notified r.job (.execTimeout "execution" (clock s.reads - r.startedAt) true) ++
            [.settle r.job.id (.rejected (.scheduler
                (.execTimeout r.job.requestId (clock s.reads - r.startedAt)))),
              .record r.job.id
                { state := .timeout, requestId := r.job.requestId, phase := some "execution",
                  ranMs := some (clock s.reads - r.startedAt), retryable := some true,
                  finishedAt := clock (s.reads + 1) }])
        done := recordedDone o s.done r.job
          { state := .timeout, requestId := r.job.requestId, phase := some "execution",
            ranMs := some (clock s.reads - r.startedAt), retryable := some true,
            finishedAt := clock (s.reads + 1) } (clock (s.reads + 2)) } := by
  simp only [timeOut, recordDone_eq, notify_eq, State.log, State.tick, State.setRun,
    State.setCell, abort, Function.update_self, Function.update_idem, List.append_assoc,
    List.cons_append, List.nil_append]

theorem getElem?_timeOut {o : Options} {clock : ℕ → ℤ} {s : State α} {k : ℕ} {r : Run α}
    (hr : s.runs[k]? = some r) :
    (timeOut o clock s k r).runs[k]? = some { r with timer := false } := by
  simp [timeOut_eq, hr]

theorem getElem?_setStage {s : State α} {k : ℕ} {r : Run α} {stage : Stage α}
    (hr : s.runs[k]? = some r) :
    (s.setRun k fun r => { r with stage := stage }).runs[k]? = some { r with stage := stage } := by
  simp [State.setRun, hr]

/-- The per-MFE counts after one slot of the MFE is given back. -/
def lowered (counts : OrderedMap String ℕ) (mfeId : String) : OrderedMap String ℕ :=
  if (counts.get? mfeId).getD 0 ≤ 1 then counts.delete mfeId
  else counts.set mfeId ((counts.get? mfeId).getD 0 - 1)

theorem freeSlot_eq (s : State α) (k : ℕ) (r : Run α) :
    freeSlot clock s k r =
      { s with
        active := s.active.delete r.job.requestId
        perMfeActive := lowered s.perMfeActive r.job.mfeId
        runs := clearedRuns (s.runs.modify k fun r => { r with released := true })
          (s.cells r.job.id).execTimer
        reads := s.reads + 1
        avgDurationMs :=
          ⌊s.avgDurationMs * (7 / 10) + (clock s.reads - r.startedAt : ℤ) * (3 / 10) + 1 / 2⌋ } := by
  simp only [freeSlot, clearExecTimer_eq, State.setRun, State.tick, lowered]

/-- The entry and the settlement a reaction makes, for a job that was not timed out. -/
def answer (s : State α) (job : Job) (finishedAt : ℤ) :
    Except (Thrown α) α → Settlement α × DoneEntry
  | .ok value =>
      (.resolved value,
        { state := .done, requestId := job.requestId, finishedAt := finishedAt })
  | .error err =>
      if (s.cells job.id).aborted then
        (.rejected (abortReason job err),
          { state := .cancelled, requestId := job.requestId, finishedAt := finishedAt })
      else
        (.rejected (.thrown err),
          { state := .failed, requestId := job.requestId, finishedAt := finishedAt,
            message := some (failureMessage err) })

theorem react_eq_of_timedOut {s : State α} {k : ℕ} {r : Run α} {result : Except (Thrown α) α}
    (h : (s.cells r.job.id).execTimedOut = true) :
    react o clock s k r result = s.setRun k fun r => { r with stage := .reacted } := by
  cases result <;> simp [react, onFulfilled, onRejected, State.setRun, h]

theorem react_eq {s : State α} {k : ℕ} {r : Run α} {result : Except (Thrown α) α}
    (h : (s.cells r.job.id).execTimedOut = false) :
    react o clock s k r result =
      { s with
        runs := s.runs.modify k fun r => { r with stage := .reacted }
        reads := s.reads + 2
        trace := s.trace ++
          [.settle r.job.id (answer s r.job (clock s.reads) result).1,
            .record r.job.id (answer s r.job (clock s.reads) result).2]
        done := recordedDone o s.done r.job (answer s r.job (clock s.reads) result).2
          (clock (s.reads + 1)) } := by
  cases result with
  | ok value =>
      simp [react, onFulfilled, recordDone_eq, State.setRun, State.log, h, answer]
  | error err =>
      by_cases ha : (s.cells r.job.id).aborted = true
      · simp [react, onRejected, recordDone_eq, State.setRun, State.log, h, ha, answer]
      · simp [react, onRejected, recordDone_eq, State.setRun, State.log, h, ha, answer]

/-- What a step leads to where `R` is known of every state: from `P` before the step, with its
action, to `Q` after it. Each field is one move with what is known when it is made; the rounds of
`_schedule` are `start`, and `tick` is its last look. -/
structure Turn (R : State α → Prop) (P : Action α → State α → Prop) (Q : State α → Prop) : Prop where
  stay : ∀ {s a}, R s → P a s → Q s
  tick : ∀ {s}, R s → Q s → Q s.tick
  start : ∀ {s} job, R s → Q s → s.active.size < o.maxSlots →
    pickNextJob o (clock s.reads) s.toTables = some job → Q (startPicked clock s.tick job)
  accept : ∀ {s} req, R s → P (.enqueue req) s → s.queue.length < o.maxQueue →
    Q (accept o clock s req)
  disarm : ∀ {s} id job, R s → P (.queueTimer id) s → s.jobs[id]? = some job →
    (s.cells id).queueTimer = true → s.idle = true →
    (∀ item ∈ s.queue, item.requestId ≠ job.requestId) → Q (clearQueueTimer s job)
  expire : ∀ {s} id job, R s → P (.queueTimer id) s → s.jobs[id]? = some job →
    (s.cells id).queueTimer = true → s.idle = true →
    (∃ item ∈ s.queue, item.requestId = job.requestId) →
    Q (expireQueued o clock (clearQueueTimer s job) job)
  cancelQueued : ∀ {s} requestId job, R s → P (.cancel requestId) s →
    s.queue.find? (fun job => job.requestId = requestId) = some job →
    Q (cancelQueued o clock s job)
  abort : ∀ {s} requestId job, R s → P (.cancel requestId) s → s.active.get? requestId = some job →
    Q (abort s job)
  timeOut : ∀ {s} k r, R s → P (.execTimer k) s → s.runs[k]? = some r → r.timer = true →
    s.idle = true → r.released = true → Q (timeOut o clock s k r)
  timeOutFree : ∀ {s} k r, R s → P (.execTimer k) s → s.runs[k]? = some r → r.timer = true →
    s.idle = true → r.released = false →
    Q (freeSlot clock (Scheduler.timeOut o clock s k r) k r)
  call : ∀ {s} k r, R s → P (.callExecute k) s → s.runs[k]? = some r → r.stage = .starting →
    Q ((s.setRun k fun r => { r with stage := .running }).log (.execute r.job.id))
  settle : ∀ {s} k r result, R s → P (.settleExecute k result) s → s.runs[k]? = some r →
    r.stage = .running → Q (s.setRun k fun r => { r with stage := .settled result })
  react : ∀ {s} k r result, R s → P (.react k) s → s.runs[k]? = some r → r.stage = .settled result →
    (s.cells r.job.id).execTimedOut = false → Q (react o clock s k r result)
  reactLate : ∀ {s} k r result, R s → P (.react k) s → s.runs[k]? = some r →
    r.stage = .settled result → (s.cells r.job.id).execTimedOut = true →
    Q (s.setRun k fun r => { r with stage := .reacted })
  finish : ∀ {s} k r, R s → P (.finalize k) s → s.runs[k]? = some r → r.stage = .reacted →
    r.released = true → Q (s.setRun k fun r => { r with stage := .finished })
  finishFree : ∀ {s} k r, R s → P (.finalize k) s → s.runs[k]? = some r → r.stage = .reacted →
    r.released = false →
    Q (freeSlot clock (s.setRun k fun r => { r with stage := .finished }) k r)

/-- A property of scheduler states that no move breaks, where `R` is known of every state. -/
abbrev KeptUnder (R P : State α → Prop) : Prop := Turn o clock R (fun _ => P) P

/-- A property of scheduler states that no move breaks. -/
abbrev Kept (P : State α → Prop) : Prop := KeptUnder o clock (fun _ => True) P

section

variable {o clock} {R : State α → Prop} {P : Action α → State α → Prop} {Q : State α → Prop}

theorem Turn.scheduleLoop (hk : Turn o clock R P Q) (hR : Kept o clock R) (fuel : ℕ)
    {s : State α} (hr : R s) (h : Q s) : Q (scheduleLoop o clock fuel s) := by
  induction fuel generalizing s with
  | zero => exact h
  | succ fuel ih =>
      unfold Scheduler.scheduleLoop
      split
      · rename_i hslot
        split
        · exact hk.tick hr h
        · rename_i job hpick
          exact ih (hR.start job trivial hr hslot hpick) (hk.start job hr h hslot hpick)
      · exact h

theorem Turn.schedule (hk : Turn o clock R P Q) (hR : Kept o clock R) {s : State α} (hr : R s)
    (h : Q s) : Q (schedule o clock s) :=
  hk.scheduleLoop hR _ hr h

/-- Every step is at most one move, followed by the rounds of `_schedule` where it frees a slot
or adds a job. -/
theorem Turn.step (hk : Turn o clock R P Q) (hR : Kept o clock R) {s s' : State α}
    {a : Action α} (hr : R s) (h : P a s) (hs : step o clock s a = some s') : Q s' := by
  cases a with
  | enqueue req =>
      by_cases hq : s.queue.length ≥ o.maxQueue
      · simp only [Scheduler.step, enqueue, if_pos hq, Option.some.injEq] at hs
        exact hs ▸ hk.stay hr h
      · simp only [Scheduler.step, enqueue, if_neg hq, Option.some.injEq] at hs
        exact hs ▸ hk.schedule hR (hR.accept req trivial hr (by omega))
          (hk.accept req hr h (by omega))
  | cancel requestId =>
      simp only [Scheduler.step, cancel, Option.some.injEq] at hs
      subst hs
      split
      · rename_i job hf
        exact hk.cancelQueued requestId job hr h hf
      · split
        · rename_i job hg
          exact hk.abort requestId job hr h hg
        · split <;> exact hk.stay hr h
  | queueTimer id =>
      simp only [Scheduler.step] at hs
      split at hs
      · rename_i job hj
        split at hs
        · rename_i harmed
          rw [Bool.and_eq_true] at harmed
          simp only [Option.some.injEq, queueTimer] at hs
          subst hs
          split
          · rename_i hany
            have hex : ∃ item ∈ s.queue, item.requestId = job.requestId := by
              simpa [clearQueueTimer, State.setCell] using hany
            exact hk.expire id job hr h hj harmed.1 harmed.2 hex
          · rename_i hany
            have hnone : ∀ item ∈ s.queue, item.requestId ≠ job.requestId := by
              simpa [clearQueueTimer, State.setCell] using hany
            exact hk.disarm id job hr h hj harmed.1 harmed.2 hnone
        · cases hs
      · cases hs
  | execTimer k =>
      simp only [Scheduler.step] at hs
      split at hs
      · rename_i r hrun
        split at hs
        · rename_i harmed
          rw [Bool.and_eq_true] at harmed
          simp only [Option.some.injEq, releaseSlot, getElem?_timeOut hrun] at hs
          subst hs
          split
          · rename_i hrel
            exact hk.timeOut k r hr h hrun harmed.1 harmed.2 hrel
          · rename_i hrel
            have hrel' : r.released = false := by simpa using hrel
            exact hk.schedule hR
              (hR.timeOutFree k r trivial hr hrun harmed.1 harmed.2 hrel')
              (hk.timeOutFree k r hr h hrun harmed.1 harmed.2 hrel')
        · cases hs
      · cases hs
  | callExecute k =>
      simp only [Scheduler.step] at hs
      split at hs
      · rename_i hrun
        simp only [Option.some.injEq] at hs
        exact hs ▸ hk.call k _ hr h hrun rfl
      · cases hs
  | settleExecute k result =>
      simp only [Scheduler.step] at hs
      split at hs
      · rename_i hrun
        simp only [Option.some.injEq] at hs
        exact hs ▸ hk.settle k _ result hr h hrun rfl
      · cases hs
  | react k =>
      simp only [Scheduler.step] at hs
      split at hs
      · rename_i r hrun
        split at hs
        · rename_i result hst
          simp only [Option.some.injEq] at hs
          subst hs
          cases ht : (s.cells r.job.id).execTimedOut with
          | false => exact hk.react k r result hr h hrun hst ht
          | true =>
              rw [react_eq_of_timedOut o clock ht]
              exact hk.reactLate k r result hr h hrun hst ht
        · cases hs
      · cases hs
  | finalize k =>
      simp only [Scheduler.step] at hs
      split at hs
      · rename_i job startedAt released timer hrun
        simp only [Option.some.injEq, releaseSlot, getElem?_setStage hrun] at hs
        subst hs
        split
        · rename_i hrel
          exact hk.finish k _ hr h hrun rfl hrel
        · rename_i hrel
          have hrel' : released = false := by simpa using hrel
          exact hk.schedule hR
            (hR.finishFree k ⟨job, startedAt, released, timer, .reacted⟩ trivial hr hrun rfl hrel')
            (hk.finishFree k ⟨job, startedAt, released, timer, .reacted⟩ hr h hrun rfl hrel')
      · cases hs

/-- Nothing to know is kept. -/
theorem kept_true : Kept o clock (fun _ : State α => True) where
  stay _ _ := trivial
  tick _ _ := trivial
  start _ _ _ _ _ := trivial
  accept _ _ _ _ := trivial
  disarm _ _ _ _ _ _ _ _ := trivial
  expire _ _ _ _ _ _ _ _ := trivial
  cancelQueued _ _ _ _ _ := trivial
  abort _ _ _ _ _ := trivial
  timeOut _ _ _ _ _ _ _ _ := trivial
  timeOutFree _ _ _ _ _ _ _ _ := trivial
  call _ _ _ _ _ _ := trivial
  settle _ _ _ _ _ _ _ := trivial
  react _ _ _ _ _ _ _ _ := trivial
  reactLate _ _ _ _ _ _ _ _ := trivial
  finish _ _ _ _ _ _ _ := trivial
  finishFree _ _ _ _ _ _ _ := trivial

/-- A property that holds at construction and is kept by every move holds after every run. -/
theorem Turn.run {P : State α → Prop} (hk : Kept o clock P) (h0 : P (init o))
    {as : List (Action α)} {s : State α} (h : exec o clock as = some s) : P s :=
  Machine.exec_invariant h0 (fun _ _ _ ht hs => hk.step kept_true trivial ht hs) h

/-- The same rule where `R` is known of every reachable state. -/
theorem Turn.runUnder {P : State α → Prop} (hk : KeptUnder o clock R P)
    (hR : Kept o clock R) (hR0 : R (init o)) (h0 : P (init o)) {as : List (Action α)} {s : State α}
    (h : exec o clock as = some s) : P s :=
  Machine.exec_invariant_under hR0 h0 (fun _ _ _ ht hs => hR.step kept_true trivial ht hs)
    (fun _ _ _ hr ht hs => hk.step hR hr ht hs) h

end

end ServeInfer.Scheduler
