import ServeInfer.Scheduler.PhaseMoves

/-!
# No job is lost or duplicated

`_schedule` and the queue timer splice the queue by request id. While what they
splice out is the job they go on with, every job stays in one phase. The first
time it is another job, that other job is lost: it is neither queued nor started
nor settled, and nothing will ever happen to it.
-/

namespace ServeInfer.Scheduler

variable {α : Type} {o : Options} {clock : ℕ → ℤ}

/-- Every job is in a phase, and every removal so far took out the job it was meant for. -/
structure Whole (s : State α) : Prop where
  phases : ∀ job ∈ s.jobs, Phase s job
  unborn : ∀ id, s.jobs.length ≤ id → executions id s.trace = 0 ∧ life id s.trace = []
  first : ∀ p ∈ picks s.trace ++ expiries s.trace, FirstOfId p

/-- Some removal took out another job than it was meant for. -/
def Strayed (s : State α) : Prop := ∃ p ∈ picks s.trace ++ expiries s.trace, ¬ FirstOfId p

/-- A job that is nowhere. -/
structure Lost (s : State α) (job : Job) : Prop where
  accepted : job ∈ s.jobs
  unqueued : job ∉ s.queue
  unstarted : job ∉ s.runs.map Run.job
  unsettled : settlements job.id s.trace = 0

/-- Inside a step a removal may stray, meant for a job that is queued; from then on a job is
lost. -/
def WholeOrLost (s : State α) : Prop :=
  Whole s ∨ (∃ job, Lost s job) ∧
    ∃ p ∈ picks s.trace ++ expiries s.trace, p.1 ∈ p.2.queue ∧ ¬ FirstOfId p

namespace Whole

variable {s t : State α}

/-- A move that concerns one job and creates none. -/
theorem of_move (hs : Shape s) (h : Whole s) {job : Job} (hjob : job ∈ s.jobs)
    (hjobs : t.jobs = s.jobs) (hc : Concerns job s t) (hphase : Phase t job)
    (hfirst : ∀ p ∈ picks t.trace ++ expiries t.trace, FirstOfId p) : Whole t where
  phases := by
    intro j hj
    rw [hjobs] at hj
    by_cases heq : j = job
    · rw [heq]
      exact hphase
    · exact (h.phases j hj).frame hc heq fun hid => heq (hs.eq_of_id_eq hj hjob hid)
  unborn := by
    intro id hid
    rw [hjobs] at hid
    have hne : id ≠ job.id := Nat.ne_of_gt (Nat.lt_of_lt_of_le (hs.id_lt hjob) hid)
    rw [hc.executed id hne, hc.life id hne]
    exact h.unborn id hid
  first := hfirst

theorem accept (hs : Shape s) (h : Whole s) (req : Request) : Whole (accept o clock s req) := by
  have hnew : Waiting (Scheduler.accept o clock s req) (newJob clock s req) :=
    Waiting.accept hs req (h.unborn _ le_rfl)
  refine ⟨?_, ?_, ?_⟩
  · intro j hj
    rw [accept_eq] at hj
    rcases List.mem_append.mp hj with hold | hlast
    · have hne : j.id ≠ s.jobs.length := Nat.ne_of_lt (hs.id_lt hold)
      have hnej : j ≠ newJob clock s req := fun heq => hne (congrArg Job.id heq)
      refine (h.phases j hold).of_same ?_ ?_ ?_ ?_ ?_
      · rw [accept_eq, List.mem_append, List.mem_singleton]
        exact or_iff_left hnej
      · rw [accept_eq]
      · rw [accept_eq]
        exact Function.update_of_ne hne _ _
      · simp [accept_eq]
      · simp [accept_eq, newJob, Ne.symm hne]
    · rw [List.mem_singleton] at hlast
      rw [hlast]
      exact .waiting hnew
  · intro id hid
    have hlen : s.jobs.length + 1 ≤ id := by simpa [accept_eq] using hid
    have hold := h.unborn id (by omega)
    have hne : s.jobs.length ≠ id := by omega
    simp [accept_eq, newJob, hold, hne]
  · simpa [accept_eq] using h.first

/-- A removal that splices out another job loses that job. -/
theorem lost_of_stray (hs : Shape s) (h : Whole s) {job : Job} (hjob : job ∈ s.queue)
    (hstray : ¬ FirstOfId (job, s.toTables)) :
    ∃ other, other ≠ job ∧ Lost { s with queue := unqueue s.queue job.requestId } other := by
  obtain ⟨other, hother⟩ :
      ∃ other, s.queue.find? (fun item => item.requestId = job.requestId) = some other := by
    cases hf : s.queue.find? (fun item => item.requestId = job.requestId) with
    | some other => exact ⟨other, rfl⟩
    | none =>
        have hno := List.find?_eq_none.mp hf job hjob
        simp at hno
  have hmem : other ∈ s.queue := List.mem_of_find?_eq_some hother
  have hw : Waiting s other := (h.phases other (hs.queued other hmem)).waiting_of_mem hmem
  obtain ⟨p, w, hlife⟩ := hw.life
  refine ⟨other, ?_, ?_⟩
  · intro heq
    exact hstray (heq ▸ hother)
  · refine ⟨hs.queued other hmem, ?_, notMem_of_callsOf_eq_none hw.calls, ?_⟩
    · rw [mem_unqueue hs.queue_nodup hother]
      exact fun hin => hin.1 rfl
    · rw [← settlements_life, hlife, Course.settlements_events]
      rfl

theorem start (hs : Shape s) (h : Whole s) {job : Job} (hjob : job ∈ s.queue) :
    WholeOrLost (startPicked clock s.tick job) := by
  have hevents : ∀ p, p ∈ picks (startPicked clock s.tick job).trace ++
      expiries (startPicked clock s.tick job).trace ↔
      p = (job, s.toTables) ∨ p ∈ picks s.trace ++ expiries s.trace := by
    intro p
    simp [startPicked_eq, State.tick]
    tauto
  by_cases hf : FirstOfId (job, s.toTables)
  · left
    have hmem := hs.queued job hjob
    have hw : Waiting s job := (h.phases job hmem).waiting_of_mem hjob
    refine h.of_move hs hmem ?_ (Concerns.start hs hf)
      (.started _ _ rfl (.isOpen (hw.start hs hf))) ?_
    · simp [startPicked_eq, State.tick]
    · intro p hp
      rcases (hevents p).mp hp with rfl | hold
      · exact hf
      · exact h.first p hold
  · right
    obtain ⟨other, hne, hlost⟩ := h.lost_of_stray hs hjob hf
    refine ⟨⟨other, ?_, ?_, ?_, ?_⟩, (job, s.toTables), (hevents _).mpr (.inl rfl), hjob,
      hf⟩
    · simpa [startPicked_eq, State.tick] using hlost.accepted
    · simpa [startPicked_eq, State.tick] using hlost.unqueued
    · have hrest := hlost.unstarted
      simp only [startPicked_eq, State.tick, List.map_append, List.mem_append, not_or]
      exact ⟨hrest, by simpa [newRun] using hne⟩
    · simpa [startPicked_eq, State.tick] using hlost.unsettled

theorem expire (hs : Shape s) (h : Whole s) {job : Job} (hjob : job ∈ s.jobs)
    (harmed : (s.cells job.id).queueTimer = true) :
    WholeOrLost (expireQueued o clock (clearQueueTimer s job) job) := by
  have hw : Waiting s job := (h.phases job hjob).waiting_of_armed harmed
  have hevents : ∀ p, p ∈ picks (expireQueued o clock (clearQueueTimer s job) job).trace ++
      expiries (expireQueued o clock (clearQueueTimer s job) job).trace ↔
      p = (job, s.toTables) ∨ p ∈ picks s.trace ++ expiries s.trace := by
    intro p
    simp [expireQueued_eq, clearQueueTimer, State.setCell]
    tauto
  by_cases hf : FirstOfId (job, s.toTables)
  · left
    refine h.of_move hs hjob ?_ (Concerns.expire hs hf) (.dropped (hw.expire hs hf)) ?_
    · simp [expireQueued_eq, clearQueueTimer, State.setCell]
    · intro p hp
      rcases (hevents p).mp hp with rfl | hold
      · exact hf
      · exact h.first p hold
  · right
    obtain ⟨other, hne, hlost⟩ := h.lost_of_stray hs hw.queued hf
    have hid : job.id ≠ other.id := fun heq => hne (hs.eq_of_id_eq hlost.accepted hjob heq.symm)
    refine ⟨⟨other, ?_, ?_, ?_, ?_⟩, (job, s.toTables), (hevents _).mpr (.inl rfl),
      hw.queued, hf⟩
    · simpa [expireQueued_eq, clearQueueTimer, State.setCell] using hlost.accepted
    · simpa [expireQueued_eq, clearQueueTimer, State.setCell] using hlost.unqueued
    · simpa [expireQueued_eq, clearQueueTimer, State.setCell] using hlost.unstarted
    · simpa [expireQueued_eq, clearQueueTimer, State.setCell, hid] using hlost.unsettled

variable (s) in
theorem tick (h : Whole s) : Whole s.tick :=
  ⟨fun job hj => (h.phases job hj).of_same Iff.rfl rfl rfl rfl rfl, h.unborn, h.first⟩

/-- A move of the only call of a job, which creates no job and takes none off the queue. -/
theorem of_call (hs : Shape s) (h : Whole s) {k : ℕ} {r : Run α} (r' : Run α)
    (hr : s.runs[k]? = some r) (hjobs : t.jobs = s.jobs) (hc : Concerns r.job s t)
    (hjob : r'.job = r.job)
    (hphase : Started s k r → Started t k r')
    (hp : picks t.trace = picks s.trace) (he : expiries t.trace = expiries s.trace) :
    Whole t := by
  have hmem := hs.job_mem hr
  have hstarted := (h.phases r.job hmem).started_of_run hr
  refine h.of_move hs hmem hjobs hc (.started k r' hjob (hphase hstarted)) ?_
  rw [hp, he]
  exact h.first

end Whole

/-- A start takes its job off the queue, so a lost job stays lost. -/
theorem Lost.start {s : State α} {job other : Job} (h : Lost s other) (hjob : job ∈ s.queue) :
    Lost (startPicked clock s.tick job) other := by
  have hne : job ≠ other := fun heq => h.unqueued (heq ▸ hjob)
  refine ⟨?_, ?_, ?_, ?_⟩
  · simpa [startPicked_eq, State.tick] using h.accepted
  · rw [startPicked_eq]
    exact fun hin => h.unqueued ((unqueue_sublist _ _).subset hin)
  · simp only [startPicked_eq, State.tick, List.map_append, List.mem_append, not_or]
    exact ⟨h.unstarted, by simpa [newRun] using Ne.symm hne⟩
  · simpa [startPicked_eq, State.tick] using h.unsettled

theorem WholeOrLost.start {s : State α} (hs : Shape s) (h : WholeOrLost s) {job : Job}
    (hjob : job ∈ s.queue) : WholeOrLost (startPicked clock s.tick job) := by
  rcases h with hwhole | ⟨⟨other, hlost⟩, p, hp, hstray⟩
  · exact hwhole.start hs hjob
  · refine .inr ⟨⟨other, hlost.start hjob⟩, p, ?_, hstray⟩
    simp only [startPicked_eq, State.tick, picks_append, expiries_append, List.mem_append] at hp ⊢
    tauto

variable (o clock) in
/-- A step from a state where every job is in its phase loses a job or none, and loses one
exactly when it strays. -/
theorem whole_turn :
    Turn o clock (Shape (α := α)) (fun _ => Whole) WholeOrLost where
  stay _ h := .inl h
  tick _ h := by
    rcases h with hwhole | ⟨⟨other, hlost⟩, hstray⟩
    · exact .inl (hwhole.tick _)
    · exact .inr ⟨⟨other, hlost.accepted, hlost.unqueued, hlost.unstarted, hlost.unsettled⟩, hstray⟩
  start job hs h _ hpick := h.start hs (pickNextJob_spec hpick).1
  accept req hs h _ := .inl (h.accept hs req)
  disarm id job hs h hj harmed _ hnone := by
    have hmem : job ∈ _ := List.mem_of_getElem? hj
    have hid := hs.index id job hj
    subst hid
    have hw := (h.phases job hmem).waiting_of_armed harmed
    exact absurd rfl (hnone job hw.queued)
  expire id job hs h hj harmed _ _ := by
    have hid := hs.index id job hj
    subst hid
    exact h.expire hs (List.mem_of_getElem? hj) harmed
  cancelQueued requestId job hs h hf := by
    have hq := List.mem_of_find?_eq_some hf
    have hmem := hs.queued job hq
    have hw := (h.phases job hmem).waiting_of_mem hq
    refine .inl (h.of_move hs hmem ?_ (Concerns.cancelQueued hs hw hf)
      (.dropped (hw.cancelQueued hs hf)) ?_)
    · simp [cancelQueued_eq]
    · simpa [cancelQueued_eq] using h.first
  abort requestId job hs h hg := by
    have hmem := hs.activated requestId job hg
    exact .inl (h.of_move hs hmem rfl (Concerns.abort _ job) (h.phases job hmem).abort h.first)
  timeOut k r hs h hr htimer hidle hrel := by
    have hmem := hs.job_mem hr
    exfalso
    cases (h.phases r.job hmem).started_of_run hr with
    | isOpen h => exact absurd (h.released.symm.trans hrel) (by decide)
    | answered h =>
        rcases h.stage with hst | hst
        · exact absurd (hst.2.symm.trans hrel) (by decide)
        · exact absurd (hst.2.2.symm.trans htimer) (by decide)
    | timedOut h => exact absurd (h.timer.symm.trans htimer) (by decide)
  timeOutFree k r hs h hr htimer hidle hrel := by
    have hpending : r.stage.pending = false := by
      have hall := List.all_eq_true.mp hidle r (List.mem_of_getElem? hr)
      simpa using hall
    have hmem := hs.job_mem hr
    have htimer' := ((h.phases r.job hmem).started_of_run hr).execTimer
    refine .inl (h.of_call hs { r with timer := false, released := true } hr ?_
      (Concerns.timeOutFree hr htimer') rfl ?_ ?_ ?_)
    · simp [freeSlot_eq, timeOut_eq]
    · intro hstarted
      cases hstarted with
      | isOpen h =>
          refine .timedOut (h.timeOutFree ?_)
          intro hst
          rw [hst] at hpending
          cases hpending
      | answered h =>
          rcases h.stage with hst | hst
          · rw [hst.1] at hpending
            cases hpending
          · exact absurd (hst.2.1.symm.trans hrel) (by decide)
      | timedOut h => exact absurd (h.released.symm.trans hrel) (by decide)
    · simp [freeSlot_eq, timeOut_eq]
    · simp [freeSlot_eq, timeOut_eq]
  call k r hs h hr hst := by
    refine .inl (h.of_call hs { r with stage := .running } hr rfl (Concerns.call hr) rfl ?_ ?_ ?_)
    · intro hstarted
      cases hstarted with
      | isOpen h => exact .isOpen (h.call hst)
      | answered h => rcases h.stage with hst' | hst' <;> simp [hst] at hst'
      | timedOut h => exact absurd hst h.stage
    · simp [State.log, State.setRun]
    · simp [State.log, State.setRun]
  settle k r result hs h hr hst := by
    refine .inl (h.of_call hs { r with stage := .settled result } hr rfl
      (Concerns.setRun hr (by simp)) rfl ?_ rfl rfl)
    intro hstarted
    cases hstarted with
    | isOpen h => exact .isOpen (h.settle hst result)
    | answered h => rcases h.stage with hst' | hst' <;> simp [hst] at hst'
    | timedOut h => exact .timedOut (h.setStage (by simp) (by rw [hst]; rfl))
  react k r result hs h hr hst ht := by
    refine .inl (h.of_call hs { r with stage := .reacted } hr ?_ (Concerns.react hr ht) rfl ?_ ?_ ?_)
    · simp [react_eq o clock ht]
    · intro hstarted
      cases hstarted with
      | isOpen h => exact .answered (h.react hst ht)
      | answered h => rcases h.stage with hst' | hst' <;> simp [hst] at hst'
      | timedOut h =>
          rw [h.cell] at ht
          cases ht
    · simp [react_eq o clock ht]
    · simp [react_eq o clock ht]
  reactLate k r result hs h hr hst ht := by
    refine .inl (h.of_call hs { r with stage := .reacted } hr rfl
      (Concerns.setRun hr (by simp)) rfl ?_ rfl rfl)
    intro hstarted
    cases hstarted with
    | isOpen h =>
        obtain ⟨aborted, hcell⟩ := h.cell
        rw [hcell] at ht
        cases ht
    | answered h => rcases h.stage with hst' | hst' <;> simp [hst] at hst'
    | timedOut h => exact .timedOut (h.setStage (by simp) (by rw [hst]; rfl))
  finish k r hs h hr hst hrel := by
    refine .inl (h.of_call hs { r with stage := .finished } hr rfl
      (Concerns.setRun hr (by simp)) rfl ?_ rfl rfl)
    intro hstarted
    cases hstarted with
    | isOpen h => exact absurd (h.released.symm.trans hrel) (by decide)
    | answered h =>
        rcases h.stage with hst' | hst'
        · exact absurd (hst'.2.symm.trans hrel) (by decide)
        · exact absurd (hst'.1.symm.trans hst) (by simp)
    | timedOut h => exact .timedOut (h.setStage (by simp) (by rw [hst]; rfl))
  finishFree k r hs h hr hst hrel := by
    have hmem := hs.job_mem hr
    have htimer := ((h.phases r.job hmem).started_of_run hr).execTimer
    refine .inl (h.of_call hs { r with stage := .finished, timer := false, released := true } hr ?_
      (Concerns.finishFree hr htimer) rfl ?_ ?_ ?_)
    · simp [freeSlot_eq, State.setRun]
    · intro hstarted
      cases hstarted with
      | isOpen h =>
          have hopen := h.stage
          rw [hst] at hopen
          cases hopen
      | answered h => exact .answered (h.finishFree hst)
      | timedOut h => exact absurd (h.released.symm.trans hrel) (by decide)
    · simp [freeSlot_eq, State.setRun]
    · simp [freeSlot_eq, State.setRun]

/-- The job is started and not settled. -/
def State.isRunning (s : State α) (job : Job) : Prop :=
  job ∈ s.runs.map Run.job ∧ settlements job.id s.trace = 0

/-- The job's promise is settled. -/
def State.isSettled (s : State α) (job : Job) : Prop := 0 < settlements job.id s.trace

/-- No timer is pending and no `execute` is outstanding, nor a reaction to one. -/
structure Quiescent (s : State α) : Prop where
  queueTimers : ∀ job ∈ s.jobs, (s.cells job.id).queueTimer = false
  execTimers : ∀ r ∈ s.runs, r.timer = false
  settled : ∀ r ∈ s.runs, r.stage = .finished

def ExactlyOne (p q r : Prop) : Prop := p ∧ ¬ q ∧ ¬ r ∨ ¬ p ∧ q ∧ ¬ r ∨ ¬ p ∧ ¬ q ∧ r

/-- The job is neither lost nor duplicated. -/
structure JobKept (s : State α) (job : Job) : Prop where
  executed : executions job.id s.trace ≤ 1
  place : ExactlyOne (job ∈ s.queue) (s.isRunning job) (s.isSettled job)
  quiescent : Quiescent s → settlements job.id s.trace = 1

/-- No job is lost or duplicated. -/
def JobsKept (s : State α) : Prop := ∀ job ∈ s.jobs, JobKept s job

theorem mem_runs_of_onlyCall {job : Job} {runs : List (Run α)} {k : ℕ} {r : Run α}
    (h : callsOf job runs = onlyCall k r) : r ∈ runs := by
  have hk := congrFun h k
  rw [onlyCall, if_pos rfl, callsOf, Option.filter_eq_some_iff] at hk
  exact List.mem_of_getElem? hk.1

theorem Stage.calls_le (stage : Stage α) : stage.calls ≤ 1 := by
  cases stage <;> simp [Stage.calls]

/-- Each phase is one of the three places, and a quiescent job has ended. -/
theorem Phase.jobKept {s : State α} {job : Job} (h : Phase s job) (hj : job ∈ s.jobs) :
    JobKept s job := by
  have hcount : ∀ c : Course α, life job.id s.trace = c.events job →
      settlements job.id s.trace = if c.isEnded then 1 else 0 := by
    intro c hlife
    rw [← settlements_life, hlife, c.settlements_events]
  cases h with
  | waiting h =>
      obtain ⟨p, w, hlife⟩ := h.life
      have hnone : settlements job.id s.trace = 0 := hcount _ hlife
      refine ⟨h.executed.trans_le (Nat.zero_le _), .inl ⟨h.queued, ?_, ?_⟩, ?_⟩
      · exact fun hrun => notMem_of_callsOf_eq_none h.calls hrun.1
      · exact fun hset => absurd hset (by simp [State.isSettled, hnone])
      · intro hquiet
        obtain ⟨aborted, hcell⟩ := h.cell
        have hoff := hquiet.queueTimers job hj
        rw [hcell] at hoff
        cases hoff
  | dropped h =>
      obtain ⟨p, w, e, hran, hlife⟩ := h.life
      have hone : settlements job.id s.trace = 1 := hcount _ hlife
      refine ⟨h.executed.trans_le (Nat.zero_le _), .inr (.inr ⟨h.unqueued, ?_, ?_⟩), ?_⟩
      · exact fun hrun => notMem_of_callsOf_eq_none h.calls hrun.1
      · simp [State.isSettled, hone]
      · exact fun _ => hone
  | started k r hjob h =>
      subst hjob
      have hcalled := h.called
      have hexec : executions r.job.id s.trace ≤ 1 := hcalled.executed.trans_le r.stage.calls_le
      have hrun : r ∈ s.runs := mem_runs_of_onlyCall hcalled.calls
      cases h with
      | isOpen h =>
          obtain ⟨p, w, hlife⟩ := h.life
          have hnone : settlements r.job.id s.trace = 0 := hcount _ hlife
          refine ⟨hexec, .inr (.inl ⟨h.unqueued, ⟨List.mem_map_of_mem hrun, hnone⟩, ?_⟩), ?_⟩
          · exact fun hset => absurd hset (by simp [State.isSettled, hnone])
          · intro hquiet
            exact absurd ((hquiet.execTimers r hrun).symm.trans h.timer) (by decide)
      | answered h =>
          obtain ⟨p, w, e, hran, hlife⟩ := h.life
          have hone : settlements r.job.id s.trace = 1 := hcount _ hlife
          refine ⟨hexec, .inr (.inr ⟨h.unqueued, ?_, ?_⟩), fun _ => hone⟩
          · exact fun hr => absurd (hone.symm.trans hr.2) (by decide)
          · simp [State.isSettled, hone]
      | timedOut h =>
          obtain ⟨p, w, ranMs, at', hlife⟩ := h.life
          have hone : settlements r.job.id s.trace = 1 := hcount _ hlife
          refine ⟨hexec, .inr (.inr ⟨h.unqueued, ?_, ?_⟩), fun _ => hone⟩
          · exact fun hr => absurd (hone.symm.trans hr.2) (by decide)
          · simp [State.isSettled, hone]

/-- A lost job is in none of the three places. -/
theorem Lost.not_jobsKept {s : State α} {job : Job} (h : Lost s job) : ¬ JobsKept s := by
  intro hkept
  rcases (hkept job h.accepted).place with hq | hr | hs
  · exact h.unqueued hq.1
  · exact h.unstarted hr.2.1.1
  · exact absurd hs.2.2 (by simp [State.isSettled, h.unsettled])

/-- The invariant of a run that has not strayed. -/
structure ShapedWhole (s : State α) : Prop extends Shape s, Whole s

theorem ShapedWhole.start_of_run (o : Options) : ShapedWhole (init o : State α) where
  toShape := Shape.start_of_run o
  phases := by intro job hj; simp [init] at hj
  unborn := by intro id _; exact ⟨rfl, rfl⟩
  first := by intro p hp; simp [init] at hp

/-- No job is lost or duplicated all along a run exactly when the run has not strayed at its
end. -/
theorem always_jobsKept_iff {as : List (Action α)} {s : State α} (h : exec o clock as = some s) :
    Machine.Always (step o clock) JobsKept (init o) as ↔ ¬ Strayed s := by
  refine Machine.always_iff_unmarked (ShapedWhole.start_of_run o) ?_ ?_ ?_ h
  · intro t ht
    refine ⟨fun job hj => (ht.phases job hj).jobKept hj, ?_⟩
    rintro ⟨p, hp, hstray⟩
    exact hstray (ht.first p hp)
  · rintro t a t' ⟨⟨job, before⟩, hp, hstray⟩ hs
    refine ⟨(job, before), ?_, hstray⟩
    rw [List.mem_append, mem_picks, mem_expiries] at hp ⊢
    exact hp.imp (fun hp => mem_trace_of_step hp hs) (fun hp => mem_trace_of_step hp hs)
  · intro t a t' ht hs
    have hshape : Shape t' := (Shape.kept o clock).step kept_true trivial ht.toShape hs
    rcases (whole_turn o clock).step (Shape.kept o clock) ht.toShape ht.toWhole hs with
      hwhole | ⟨⟨job, hlost⟩, p, hp, -, hstray⟩
    · exact .inl ⟨hshape, hwhole⟩
    · exact .inr ⟨hlost.not_jobsKept, p, hp, hstray⟩

/-- No job is lost or duplicated in any state of a run exactly when every job that was started,
and every job whose queue timer fired on a queued id, was the first queued job of its id. -/
theorem jobsKept_iff_first_of_id {as : List (Action α)} {s : State α}
    (h : exec o clock as = some s) :
    Machine.Always (step o clock) JobsKept (init o) as ↔
      ∀ job before, Event.picked job before ∈ s.trace ∨ Event.expiring job before ∈ s.trace →
        before.queue.find? (fun item => item.requestId = job.requestId) = some job := by
  rw [always_jobsKept_iff h]
  constructor
  · intro hnone job before hevent
    by_contra hne
    refine hnone ⟨(job, before), ?_, hne⟩
    rw [List.mem_append, mem_picks, mem_expiries]
    exact hevent
  · rintro hall ⟨⟨job, before⟩, hp, hstray⟩
    rw [List.mem_append, mem_picks, mem_expiries] at hp
    exact hstray (hall job before hp)

/-- One slot is busy while a low and then a high job of one id are queued; then it is freed. -/
def sharedQueuedId : List (Action ℕ) :=
  [.enqueue { requestId := "b", mfeId := "m" },
    .enqueue { requestId := "x", mfeId := "m", priority := "low" },
    .enqueue { requestId := "x", mfeId := "m", priority := "high" },
    .callExecute 0, .settleExecute 0 (.ok 7), .react 0, .finalize 0]

theorem jobsKept_sharedQueuedId :
    ¬ Machine.Always (step { maxSlots := 1 } fun _ => 0) JobsKept (init { maxSlots := 1 })
      sharedQueuedId := by
  rw [jobsKept_iff_first_of_id (Option.some_get (by decide)).symm]
  intro hall
  let low : Job := ⟨1, "x", "m", .low, true, 0⟩
  let high : Job := ⟨2, "x", "m", .high, true, 0⟩
  have hfirst := hall high { queue := [low, high] } (.inl (by decide +kernel))
  exact absurd hfirst (by decide)

/-- The high job is started and the low one taken off the queue, never to be started or settled. -/
theorem job_lost :
    ¬ ∀ (o : Options) (clock : ℕ → ℤ) (as : List (Action ℕ)) (s : State ℕ),
      exec o clock as = some s → JobsKept s := by
  intro hall
  have hfacts : (exec { maxSlots := 1 } (fun _ => 0) sharedQueuedId).map (fun s =>
      (s.jobs.map Job.id, s.queue.map Job.id, s.runs.map fun r => r.job.id,
        settlements 1 s.trace)) = some ([0, 1, 2], [2], [0, 2], 0) := by
    decide +kernel
  obtain ⟨s, hs, heq⟩ := Option.map_eq_some_iff.mp hfacts
  simp only [Prod.mk.injEq] at heq
  obtain ⟨hjobs, hqueue, hruns, hnone⟩ := heq
  obtain ⟨job, hj, hid⟩ := List.mem_map.mp (show 1 ∈ s.jobs.map Job.id by rw [hjobs]; decide)
  rcases (hall _ _ _ s hs job hj).place with hq | hr | hset
  · have hmem := List.mem_map_of_mem (f := Job.id) hq.1
    rw [hqueue, hid] at hmem
    exact absurd hmem (by decide)
  · obtain ⟨r, hmem, hjob⟩ := List.mem_map.mp hr.2.1.1
    have hrun := List.mem_map_of_mem (f := fun r => r.job.id) hmem
    rw [hruns, hjob, hid] at hrun
    exact absurd hrun (by decide)
  · have hpos := hset.2.2
    rw [State.isSettled, hid, hnone] at hpos
    exact absurd hpos (by decide)

end ServeInfer.Scheduler
