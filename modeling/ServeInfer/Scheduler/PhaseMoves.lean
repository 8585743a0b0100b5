import ServeInfer.Scheduler.JobPhase

/-!
# How each move changes the phase of its job

One lemma says that a move concerns one job only, and one says which phase it
takes that job from and to.
-/

namespace ServeInfer.Scheduler

variable {α : Type} {o : Options} {clock : ℕ → ℤ} {s : State α}

/-- Splicing the first job of its id out removes that job and no other. -/
theorem mem_unqueue {queue : List Job} {requestId : String} {job : Job} (hnd : queue.Nodup)
    (hf : queue.find? (fun item => item.requestId = requestId) = some job) (j : Job) :
    j ∈ unqueue queue requestId ↔ j ≠ job ∧ j ∈ queue := by
  induction queue with
  | nil => simp at hf
  | cons item queue ih =>
      rw [List.nodup_cons] at hnd
      unfold unqueue at ih ⊢
      by_cases heq : item.requestId = requestId
      · rw [List.find?_cons_of_pos (by simpa using heq), Option.some.injEq] at hf
        subst hf
        rw [List.eraseP_cons_of_pos (by simpa using heq), List.mem_cons]
        constructor
        · intro hj
          exact ⟨fun h => hnd.1 (h ▸ hj), .inr hj⟩
        · rintro ⟨hne, hj⟩
          exact hj.resolve_left hne
      · rw [List.find?_cons_of_neg (by simpa using heq)] at hf
        have hne : item ≠ job := by
          intro h
          exact heq (by simpa [h] using List.find?_some hf)
        rw [List.eraseP_cons_of_neg (by simpa using heq), List.mem_cons, ih hnd.2 hf,
          List.mem_cons]
        constructor
        · rintro (rfl | ⟨hj, hmem⟩)
          · exact ⟨hne, .inl rfl⟩
          · exact ⟨hj, .inr hmem⟩
        · rintro ⟨hj, rfl | hmem⟩
          · exact .inl rfl
          · exact .inr ⟨hj, hmem⟩

/-- The first queued job of its own id. -/
def FirstOfId (p : Job × Tables) : Prop :=
  p.2.queue.find? (fun item => item.requestId = p.1.requestId) = some p.1

namespace Concerns

theorem start (hs : Shape s) {job : Job} (hf : FirstOfId (job, s.toTables)) :
    Concerns job s (startPicked clock s.tick job) := by
  rw [startPicked_eq]
  constructor
  · intro j hj
    rw [State.tick, mem_unqueue hs.queue_nodup hf]
    exact and_iff_right hj
  · intro j hj
    exact callsOf_append_of_ne (Ne.symm hj)
  · intro id hid
    exact Function.update_of_ne hid _ _
  · intro id hid
    simp [State.tick]
  · intro id hid
    simp [State.tick, Ne.symm hid]

theorem expire (hs : Shape s) {job : Job} (hf : FirstOfId (job, s.toTables)) :
    Concerns job s (expireQueued o clock (clearQueueTimer s job) job) := by
  rw [expireQueued_eq]
  constructor
  · intro j hj
    rw [clearQueueTimer, State.setCell, mem_unqueue hs.queue_nodup hf]
    exact and_iff_right hj
  · intro j hj
    rfl
  · intro id hid
    exact Function.update_of_ne hid _ _
  · intro id hid
    simp [clearQueueTimer, State.setCell]
  · intro id hid
    simp [clearQueueTimer, State.setCell, Ne.symm hid]

theorem cancelQueued (hs : Shape s) {requestId : String} {job : Job} (hw : Waiting s job)
    (hf : s.queue.find? (fun item => item.requestId = requestId) = some job) :
    Concerns job s (cancelQueued o clock s job) := by
  obtain ⟨aborted, hcell⟩ := hw.cell
  have hid : job.requestId = requestId := by simpa using List.find?_some hf
  rw [cancelQueued_eq]
  constructor
  · intro j hj
    rw [mem_unqueue hs.queue_nodup (hid ▸ hf)]
    exact and_iff_right hj
  · intro j hj
    rw [hcell]
    rfl
  · intro id hid
    exact Function.update_of_ne hid _ _
  · intro id hid
    simp
  · intro id hid
    simp [Ne.symm hid]

theorem abort (s : State α) (job : Job) : Concerns job s (abort s job) where
  queue _ _ := Iff.rfl
  calls _ _ := rfl
  cells _ hid := Function.update_of_ne hid _ _
  executed _ _ := rfl
  life _ _ := rfl

/-- A change of one call's own variables. -/
theorem setRun {k : ℕ} {r : Run α} (hr : s.runs[k]? = some r) {f : Run α → Run α}
    (hf : ∀ r, (f r).job = r.job) : Concerns r.job s (s.setRun k f) where
  queue _ _ := Iff.rfl
  calls _ hj := callsOf_modify_of_ne hf hr (Ne.symm hj)
  cells _ _ := rfl
  executed _ _ := rfl
  life _ _ := rfl

theorem call {k : ℕ} {r : Run α} (hr : s.runs[k]? = some r) :
    Concerns r.job s
      ((s.setRun k fun r => { r with stage := .running }).log (.execute r.job.id)) where
  queue _ _ := Iff.rfl
  calls _ hj := callsOf_modify_of_ne (by simp) hr (Ne.symm hj)
  cells _ _ := rfl
  executed id hid := by simp [State.log, State.setRun, Ne.symm hid]
  life id hid := by simp [State.log, State.setRun]

theorem timeOut {k : ℕ} {r : Run α} (hr : s.runs[k]? = some r) :
    Concerns r.job s (timeOut o clock s k r) := by
  rw [timeOut_eq]
  constructor
  · intro j hj
    rfl
  · intro j hj
    exact callsOf_modify_of_ne (by simp) hr (Ne.symm hj)
  · intro id hid
    exact Function.update_of_ne hid _ _
  · intro id hid
    simp
  · intro id hid
    simp [Ne.symm hid]

theorem react {k : ℕ} {r : Run α} {result : Except (Thrown α) α} (hr : s.runs[k]? = some r)
    (ht : (s.cells r.job.id).execTimedOut = false) :
    Concerns r.job s (react o clock s k r result) := by
  rw [react_eq o clock ht]
  constructor
  · intro j hj
    rfl
  · intro j hj
    exact callsOf_modify_of_ne (by simp) hr (Ne.symm hj)
  · intro id hid
    rfl
  · intro id hid
    simp
  · intro id hid
    simp [Ne.symm hid]

/-- A slot given back by the call whose timer the job holds. -/
theorem free {k : ℕ} {r r' : Run α} (hr : s.runs[k]? = some r') (hjob : r'.job = r.job)
    (htimer : (s.cells r.job.id).execTimer = some k) :
    Concerns r.job s (freeSlot clock s k r) := by
  rw [freeSlot_eq, htimer]
  constructor
  · intro j hj
    rfl
  · intro j hj
    have hne : r'.job ≠ j := fun heq => hj (heq.symm.trans hjob)
    have hr' : (s.runs.modify k fun r => { r with released := true })[k]? =
        some { r' with released := true } := by simp [hr]
    rw [clearedRuns, callsOf_modify_of_ne (by simp) hr' hne]
    exact callsOf_modify_of_ne (by simp) hr hne
  · intro id hid
    rfl
  · intro id hid
    rfl
  · intro id hid
    rfl

theorem trans {job : Job} {t u : State α} (h : Concerns job s t) (h' : Concerns job t u) :
    Concerns job s u where
  queue j hj := (h'.queue j hj).trans (h.queue j hj)
  calls j hj := (h'.calls j hj).trans (h.calls j hj)
  cells id hid := (h'.cells id hid).trans (h.cells id hid)
  executed id hid := (h'.executed id hid).trans (h.executed id hid)
  life id hid := (h'.life id hid).trans (h.life id hid)

theorem timeOutFree {k : ℕ} {r : Run α} (hr : s.runs[k]? = some r)
    (htimer : (s.cells r.job.id).execTimer = some k) :
    Concerns r.job s (freeSlot clock (Scheduler.timeOut o clock s k r) k r) := by
  refine (Concerns.timeOut hr).trans (Concerns.free (getElem?_timeOut hr) rfl ?_)
  simp [timeOut_eq, htimer]

theorem finishFree {k : ℕ} {r : Run α} (hr : s.runs[k]? = some r)
    (htimer : (s.cells r.job.id).execTimer = some k) :
    Concerns r.job s
      (freeSlot clock (s.setRun k fun r => { r with stage := .finished }) k r) :=
  (Concerns.setRun hr (by simp)).trans (Concerns.free (getElem?_setStage hr) rfl htimer)

end Concerns

section OwnPhase

/-- A fresh job waits. -/
theorem Waiting.accept (hs : Shape s) (req : Request)
    (hnew : executions s.jobs.length s.trace = 0 ∧ Scheduler.life s.jobs.length s.trace = []) :
    Waiting (accept o clock s req) (newJob clock s req) := by
  rw [accept_eq]
  constructor
  · simp
  · exact ⟨false, by simp [newJob]⟩
  · apply callsOf_eq_none_of_notMem
    intro hmem
    have hlt := hs.id_lt (hs.ran _ hmem)
    exact absurd hlt (Nat.lt_irrefl _)
  · simp [newJob, hnew.1]
  · obtain ⟨p, w, hpw⟩ : ∃ p w, queuedStatus o clock s req = .queued p w := ⟨_, _, rfl⟩
    exact ⟨p, w, by simp [newJob, hnew.2, Course.events, hpw]⟩

theorem Waiting.start (hs : Shape s) {job : Job} (hw : Waiting s job)
    (hf : FirstOfId (job, s.toTables)) :
    OpenCall (startPicked clock s.tick job) s.runs.length
      (newRun (clock (s.reads + 1)) job) := by
  obtain ⟨aborted, hcell⟩ := hw.cell
  obtain ⟨p, w, hlife⟩ := hw.life
  rw [startPicked_eq]
  simp only [State.tick]
  refine { unqueued := ?_, calls := ?_, executed := ?_, cell := ⟨aborted, ?_⟩, stage := rfl,
           released := rfl, timer := rfl, life := ⟨p, w, ?_⟩ }
  · rw [mem_unqueue hs.queue_nodup hf]
    exact fun h => h.1 rfl
  · have hcalls : callsOf job (s.runs ++ [newRun (clock (s.reads + 1)) job]) =
        onlyCall s.runs.length (newRun (clock (s.reads + 1)) job) :=
      callsOf_append_self rfl hw.calls
    exact hcalls
  · simp [newRun, hw.executed, Stage.calls]
  · simp [newRun, hcell]
  · simp [newRun, hlife, Course.events]

theorem Waiting.expire (hs : Shape s) {job : Job} (hw : Waiting s job)
    (hf : FirstOfId (job, s.toTables)) :
    Dropped (expireQueued o clock (clearQueueTimer s job) job) job := by
  obtain ⟨aborted, hcell⟩ := hw.cell
  obtain ⟨p, w, hlife⟩ := hw.life
  rw [expireQueued_eq]
  simp only [clearQueueTimer, State.setCell]
  refine { unqueued := ?_, cell := ⟨aborted, ?_⟩, calls := hw.calls, executed := ?_,
           life := ⟨p, w,
             .queueTimeout (clock s.reads - job.createdAt) (clock (s.reads + 1)), rfl, ?_⟩ }
  · rw [mem_unqueue hs.queue_nodup hf]
    exact fun h => h.1 rfl
  · simp [hcell]
  · simp [hw.executed]
  · simp [hlife, Course.events, Ending.events, Ending.ran, Ending.status, Ending.settlement,
      Ending.entry]

theorem Waiting.cancelQueued (hs : Shape s) {requestId : String} {job : Job} (hw : Waiting s job)
    (hf : s.queue.find? (fun item => item.requestId = requestId) = some job) :
    Dropped (cancelQueued o clock s job) job := by
  obtain ⟨aborted, hcell⟩ := hw.cell
  obtain ⟨p, w, hlife⟩ := hw.life
  have hid : job.requestId = requestId := by simpa using List.find?_some hf
  rw [cancelQueued_eq]
  refine { unqueued := ?_, cell := ⟨aborted, ?_⟩, calls := ?_, executed := ?_,
           life := ⟨p, w, .cancelled (clock s.reads), rfl, ?_⟩ }
  · rw [mem_unqueue hs.queue_nodup (hid ▸ hf)]
    exact fun h => h.1 rfl
  · simp [hcell]
  · simp [hcell, clearedRuns, hw.calls]
  · simp [hw.executed]
  · simp [hlife, Course.events, Ending.events, Ending.ran, Ending.status, Ending.settlement,
      Ending.entry]

/-- An abort only raises the job's signal. -/
theorem Phase.abort {job : Job} (h : Phase s job) : Phase (abort s job) job := by
  cases h with
  | waiting h =>
      obtain ⟨aborted, hcell⟩ := h.cell
      exact .waiting { h with cell := ⟨true, by simp [Scheduler.abort, State.setCell, hcell]⟩ }
  | dropped h =>
      obtain ⟨aborted, hcell⟩ := h.cell
      exact .dropped { h with cell := ⟨true, by simp [Scheduler.abort, State.setCell, hcell]⟩ }
  | started k r hjob h =>
      subst hjob
      cases h with
      | isOpen h =>
          obtain ⟨aborted, hcell⟩ := h.cell
          exact .started k r rfl (.isOpen
            { h with cell := ⟨true, by simp [Scheduler.abort, State.setCell, hcell]⟩ })
      | answered h =>
          obtain ⟨aborted, hcell⟩ := h.cell
          exact .started k r rfl (.answered
            { h with cell := ⟨true, by simp [Scheduler.abort, State.setCell, hcell]⟩ })
      | timedOut h =>
          exact .started k r rfl (.timedOut
            { h with cell := by simp [Scheduler.abort, State.setCell, h.cell] })

variable {k : ℕ} {r : Run α}

/-- The call's own variables change, and nothing is told, settled or recorded. -/
theorem Called.setStage (h : Called s k r) {stage : Stage α} (hc : stage.calls = r.stage.calls) :
    Called (s.setRun k fun r => { r with stage := stage }) k { r with stage := stage } where
  unqueued := h.unqueued
  calls := callsOf_modify_self _ (by simp) h.calls rfl
  executed := h.executed.trans hc.symm

theorem OpenCall.call (h : OpenCall s k r) (hst : r.stage = .starting) :
    OpenCall ((s.setRun k fun r => { r with stage := .running }).log (.execute r.job.id)) k
      { r with stage := .running } where
  unqueued := h.unqueued
  calls := callsOf_modify_self _ (by simp) h.calls rfl
  executed := by
    have hnone : executions r.job.id s.trace = 0 := by rw [h.executed, hst]; rfl
    simp [State.log, State.setRun, hnone, Stage.calls]
  cell := h.cell
  stage := rfl
  released := h.released
  timer := h.timer
  life := by
    obtain ⟨p, w, hlife⟩ := h.life
    exact ⟨p, w, by simp [State.log, State.setRun, hlife]⟩

theorem OpenCall.settle (h : OpenCall s k r) (hst : r.stage = .running)
    (result : Except (Thrown α) α) :
    OpenCall (s.setRun k fun r => { r with stage := .settled result }) k
      { r with stage := .settled result } :=
  { h.toCalled.setStage (by rw [hst]; rfl) with
    cell := h.cell, stage := rfl, released := h.released, timer := h.timer, life := h.life }

/-- A timed-out call goes on without showing anything. -/
theorem TimedOut.setStage (h : TimedOut s k r) {stage : Stage α} (hne : stage ≠ .starting)
    (hc : stage.calls = r.stage.calls) :
    TimedOut (s.setRun k fun r => { r with stage := stage }) k { r with stage := stage } :=
  { h.toCalled.setStage hc with
    cell := h.cell, stage := hne, released := h.released, timer := h.timer, life := h.life }

/-- The reaction to an answer in time settles and records. -/
theorem OpenCall.react (h : OpenCall s k r) {result : Except (Thrown α) α}
    (hst : r.stage = .settled result) (ht : (s.cells r.job.id).execTimedOut = false) :
    Answered (react o clock s k r result) k { r with stage := .reacted } := by
  obtain ⟨p, w, hlife⟩ := h.life
  have hend : ∃ e : Ending α, e.ran = true ∧ e.status = none ∧
      (answer s r.job (clock s.reads) result).1 = e.settlement r.job ∧
      (answer s r.job (clock s.reads) result).2 = e.entry r.job := by
    cases result with
    | ok value => exact ⟨.resolved value _, rfl, rfl, rfl, rfl⟩
    | error err =>
        cases ha : (s.cells r.job.id).aborted with
        | true =>
            refine ⟨.aborted err (clock s.reads), rfl, rfl, ?_, ?_⟩ <;>
              simp [answer, ha, Ending.settlement, Ending.entry]
        | false =>
            refine ⟨.failed err (clock s.reads), rfl, rfl, ?_, ?_⟩ <;>
              simp [answer, ha, Ending.settlement, Ending.entry]
  obtain ⟨e, hran, hstatus, hsettle, hentry⟩ := hend
  have hone : executions r.job.id s.trace = 1 := by rw [h.executed, hst]; rfl
  rw [react_eq o clock ht, hsettle, hentry]
  refine { unqueued := h.unqueued, calls := callsOf_modify_self _ (by simp) h.calls rfl,
           executed := ?_, cell := h.cell, stage := .inl ⟨rfl, h.released⟩,
           life := ⟨p, w, e, hran, ?_⟩ }
  · simp [hone, Stage.calls]
  · simp [hlife, Course.events, Ending.events, hran, hstatus]

/-- The only call gives its slot back. -/
theorem callsOf_freed {job : Job} {runs : List (Run α)} (h : callsOf job runs = onlyCall k r)
    (hr : r.job = job) :
    callsOf job (clearedRuns (runs.modify k fun r => { r with released := true }) (some k)) =
      onlyCall k { r with timer := false, released := true } := by
  have hreleased := callsOf_modify_self (fun r => { r with released := true })
    (fun _ => rfl) h hr
  have hcleared := callsOf_modify_self (fun r => { r with timer := false })
    (fun _ => rfl) hreleased hr
  exact hcleared

/-- The execution timer of an open call announces, settles, records and gives the slot back. -/
theorem OpenCall.timeOutFree (h : OpenCall s k r) (hst : r.stage ≠ .starting) :
    TimedOut (freeSlot clock (timeOut o clock s k r) k r) k
      { r with timer := false, released := true } := by
  obtain ⟨aborted, hcell⟩ := h.cell
  obtain ⟨p, w, hlife⟩ := h.life
  have htimer : ((timeOut o clock s k r).cells r.job.id).execTimer = some k := by
    simp [timeOut_eq, hcell]
  rw [freeSlot_eq, htimer, timeOut_eq]
  refine { unqueued := h.unqueued, calls := ?_, executed := ?_, cell := ?_, stage := hst,
           released := rfl, timer := rfl,
           life := ⟨p, w, clock s.reads - r.startedAt, clock (s.reads + 1), ?_⟩ }
  · have hdisarmed : callsOf r.job (s.runs.modify k fun r => { r with timer := false }) =
        onlyCall k { r with timer := false } := callsOf_modify_self _ (by simp) h.calls rfl
    have hfreed := callsOf_freed hdisarmed rfl
    exact hfreed
  · simp [h.executed]
  · simp [hcell]
  · simp [hlife, Course.events, Ending.events, Ending.ran, Ending.status, Ending.settlement,
      Ending.entry]

/-- The last reaction of a call answered in time gives the slot back. -/
theorem Answered.finishFree (h : Answered s k r) (hst : r.stage = .reacted) :
    Answered (freeSlot clock (s.setRun k fun r => { r with stage := .finished }) k r) k
      { r with stage := .finished, timer := false, released := true } := by
  obtain ⟨aborted, hcell⟩ := h.cell
  have hcalled : Called (s.setRun k fun r => { r with stage := .finished }) k
      { r with stage := .finished } := h.toCalled.setStage (by rw [hst]; rfl)
  have htimer : ((s.setRun k fun r => { r with stage := .finished }).cells r.job.id).execTimer =
      some k := by simp [State.setRun, hcell]
  rw [freeSlot_eq, htimer]
  refine { unqueued := h.unqueued, calls := ?_, executed := hcalled.executed,
           cell := ⟨aborted, hcell⟩, stage := .inr ⟨rfl, rfl, rfl⟩, life := h.life }
  have hfreed := callsOf_freed hcalled.calls rfl
  exact hfreed

end OwnPhase

end ServeInfer.Scheduler
