import ServeInfer.Scheduler.Course
import ServeInfer.Scheduler.Shape

/-!
# What brings an ending about

Each ending has one kind of cause: a timer of the job, a `cancel`, or the reaction to what the
job's `execute` was settled with. A rejection counts as a failure or as an abort by the job's own
signal, which a `cancel` raises while the job is active.
-/

namespace ServeInfer.Scheduler

variable {α : Type} (o : Options) (clock : ℕ → ℤ)

/-- A `cancel` has found the job active, and none of its id in the queue. -/
def Signalled (as : List (Action α)) (job : Job) : Prop :=
  ∃ pre requestId s, pre ++ [.cancel requestId] <+: as ∧ exec o clock pre = some s ∧
    s.queue.find? (fun item => item.requestId = requestId) = none ∧
    s.active.get? requestId = some job

/-- The `k`-th call of `_run` is for the job. -/
def State.CallsFor (s : State α) (k : ℕ) (job : Job) : Prop :=
  (s.runs[k]?).map Run.job = some job

/-- The `execute` of the job's `k`-th call was settled with this result. -/
def Delivered (as : List (Action α)) (s : State α) (k : ℕ) (job : Job)
    (result : Except (Thrown α) α) : Prop :=
  s.CallsFor k job ∧ .settleExecute k result ∈ as

/-- An action, and the run before it, account for an ending of the job. -/
def Ending.AccountedBy (as : List (Action α)) (s : State α) (a : Action α) (job : Job) :
    Ending α → Prop
  | queueTimeout .. => a = .queueTimer job.id ∧ job ∈ s.queue
  | cancelled _ => a = .cancel job.requestId ∧ job ∈ s.queue
  | resolved result _ => ∃ k, a = .react k ∧ Delivered as s k job (.ok result)
  | failed err _ =>
      ∃ k, a = .react k ∧ Delivered as s k job (.error err) ∧ ¬ Signalled o clock as job
  | aborted err _ =>
      ∃ k, a = .react k ∧ Delivered as s k job (.error err) ∧ Signalled o clock as job
  | execTimeout .. => ∃ k, a = .execTimer k ∧ s.CallsFor k job

/-- Some action of the run accounts for the ending. -/
def Ending.Caused (as : List (Action α)) (job : Job) (e : Ending α) : Prop :=
  ∃ pre a s, pre ++ [a] <+: as ∧ exec o clock pre = some s ∧ e.AccountedBy o clock pre s a job

/-- The ending that a move brings about, as the state shows it. -/
def Ending.Due (s : State α) (a : Action α) (job : Job) : Ending α → Prop
  | queueTimeout .. =>
      ∃ id, a = .queueTimer id ∧ s.jobs[id]? = some job ∧ (s.cells id).queueTimer = true
  | cancelled _ =>
      ∃ requestId, a = .cancel requestId ∧
        s.queue.find? (fun item => item.requestId = requestId) = some job
  | resolved result _ =>
      ∃ k r, a = .react k ∧ s.runs[k]? = some r ∧ r.job = job ∧ r.stage = .settled (.ok result)
  | failed err _ =>
      ∃ k r, a = .react k ∧ s.runs[k]? = some r ∧ r.job = job ∧ r.stage = .settled (.error err) ∧
        (s.cells job.id).execTimedOut = false ∧ (s.cells job.id).aborted = false
  | aborted err _ =>
      ∃ k r, a = .react k ∧ s.runs[k]? = some r ∧ r.job = job ∧ r.stage = .settled (.error err) ∧
        (s.cells job.id).execTimedOut = false ∧ (s.cells job.id).aborted = true
  | execTimeout .. => ∃ k r, a = .execTimer k ∧ s.runs[k]? = some r ∧ r.job = job

variable {o clock} {s₀ s t : State α} {a₀ : Action α}

section Settlements

/-- Every settlement is an old one, or of an ending that is due, whose entry is there too. -/
def SettledSince (s₀ : State α) (a₀ : Action α) (s : State α) : Prop :=
  ∀ id outcome, .settle id outcome ∈ s.trace → .settle id outcome ∈ s₀.trace ∨
    ∃ (job : Job) (e : Ending α), job.id = id ∧ e.Due s₀ a₀ job ∧ outcome = e.settlement job ∧
      .record id (e.entry job) ∈ s.trace

/-- Nothing is settled by these events. -/
def Unsettling (l : List (Event α)) : Prop := ∀ id outcome, .settle id outcome ∉ l

theorem unsettling_notified (job : Job) (status : Status) :
    Unsettling (notified job status : List (Event α)) := by
  intro id outcome
  unfold notified
  split <;> simp

theorem Unsettling.cons {e : Event α} {l : List (Event α)} (h : Unsettling l)
    (he : ∀ id outcome, .settle id outcome ≠ e) : Unsettling (e :: l) := by
  intro id outcome hmem
  rcases List.mem_cons.mp hmem with heq | hmem
  · exact he id outcome heq
  · exact h id outcome hmem

theorem SettledSince.unchanged (ht : t.trace = s₀.trace) : SettledSince s₀ a₀ t :=
  fun _ _ h => .inl (ht ▸ h)

theorem SettledSince.quiet (h : SettledSince s₀ a₀ s) {l : List (Event α)}
    (ht : t.trace = s.trace ++ l) (hl : Unsettling l) : SettledSince s₀ a₀ t := by
  intro id outcome hmem
  rw [ht, List.mem_append] at hmem
  have hbefore := hmem.resolve_right (hl id outcome)
  rcases h id outcome hbefore with hold | ⟨job, e, hid, hdue, hout, hrec⟩
  · exact .inl hold
  · exact .inr ⟨job, e, hid, hdue, hout, ht ▸ List.mem_append_left _ hrec⟩

/-- A move that ends a job. -/
theorem settledSince_of_ending {job : Job} {e : Ending α} (hdue : e.Due s₀ a₀ job)
    {l : List (Event α)}
    (ht : t.trace = s₀.trace ++ (l ++
      [.settle job.id (e.settlement job), .record job.id (e.entry job)]))
    (hl : Unsettling l) : SettledSince s₀ a₀ t := by
  intro id outcome hmem
  rw [ht, List.mem_append, List.mem_append] at hmem
  rcases hmem with hold | hnew | hend
  · exact .inl hold
  · exact absurd hnew (hl id outcome)
  · have hboth : id = job.id ∧ outcome = e.settlement job := by simpa using hend
    obtain ⟨rfl, rfl⟩ := hboth
    exact .inr ⟨job, e, rfl, hdue, rfl, by simp [ht]⟩

/-- A step from `s₀` settles what is due, and records it. -/
theorem settled_turn (o : Options) (clock : ℕ → ℤ) (s₀ : State α) (a₀ : Action α) :
    Turn o clock (fun _ => True) (fun a s => a = a₀ ∧ s = s₀) (SettledSince s₀ a₀) where
  stay := by
    rintro s a - ⟨-, rfl⟩
    exact .unchanged rfl
  tick _ h := h
  start job _ h _ _ := by
    rw [startPicked_eq]
    exact h.quiet rfl ((unsettling_notified _ _).cons (by simp))
  accept := by
    rintro s req - ⟨-, rfl⟩ -
    rw [accept_eq]
    exact (SettledSince.unchanged rfl).quiet rfl (unsettling_notified _ _)
  disarm := by
    rintro s id job - ⟨-, rfl⟩ - - - -
    exact .unchanged rfl
  expire := by
    rintro s id job - ⟨rfl, rfl⟩ hj harmed - -
    rw [expireQueued_eq]
    exact settledSince_of_ending (e := .queueTimeout (clock s.reads - job.createdAt)
      (clock (s.reads + 1))) ⟨id, rfl, hj, harmed⟩
      (l := .expiring job s.toTables :: notified job _) (by simp [clearQueueTimer]; rfl)
      ((unsettling_notified _ _).cons (by simp))
  cancelQueued := by
    rintro s requestId job - ⟨rfl, rfl⟩ hf
    rw [cancelQueued_eq]
    exact settledSince_of_ending (e := .cancelled (clock s.reads)) ⟨requestId, rfl, hf⟩ rfl
      (unsettling_notified _ _)
  abort := by
    rintro s requestId job - ⟨-, rfl⟩ -
    exact .unchanged rfl
  timeOut := by
    rintro s k r - ⟨rfl, rfl⟩ hr - - -
    rw [timeOut_eq]
    exact settledSince_of_ending (e := .execTimeout (clock s.reads - r.startedAt)
      (clock (s.reads + 1))) ⟨k, r, rfl, hr, rfl⟩ rfl (unsettling_notified _ _)
  timeOutFree := by
    rintro s k r - ⟨rfl, rfl⟩ hr - - -
    rw [freeSlot_eq, timeOut_eq]
    exact settledSince_of_ending (e := .execTimeout (clock s.reads - r.startedAt)
      (clock (s.reads + 1))) ⟨k, r, rfl, hr, rfl⟩ rfl (unsettling_notified _ _)
  call := by
    rintro s k r - ⟨-, rfl⟩ - -
    exact (SettledSince.unchanged rfl).quiet (l := [.execute r.job.id]) rfl (by simp [Unsettling])
  settle := by
    rintro s k r result - ⟨-, rfl⟩ - -
    exact .unchanged rfl
  react := by
    rintro s k r result - ⟨rfl, rfl⟩ hr hst ht
    rw [react_eq o clock ht]
    cases result with
    | ok value =>
        exact settledSince_of_ending (e := .resolved value (clock s.reads))
          ⟨k, r, rfl, hr, rfl, hst⟩ (l := []) rfl (by simp [Unsettling])
    | error err =>
        cases ha : (s.cells r.job.id).aborted with
        | true =>
            exact settledSince_of_ending (e := .aborted err (clock s.reads))
              ⟨k, r, rfl, hr, rfl, hst, ht, ha⟩ (l := [])
              (by simp [answer, ha, Ending.settlement, Ending.entry]) (by simp [Unsettling])
        | false =>
            exact settledSince_of_ending (e := .failed err (clock s.reads))
              ⟨k, r, rfl, hr, rfl, hst, ht, ha⟩ (l := [])
              (by simp [answer, ha, Ending.settlement, Ending.entry]) (by simp [Unsettling])
  reactLate := by
    rintro s k r result - ⟨-, rfl⟩ - - -
    exact .unchanged rfl
  finish := by
    rintro s k r - ⟨-, rfl⟩ - - -
    exact .unchanged rfl
  finishFree := by
    rintro s k r - ⟨-, rfl⟩ - - -
    rw [freeSlot_eq]
    exact .unchanged rfl

end Settlements

section Results

/-- What the calls of `_run` were settled with. -/
def Stage.result? : Stage α → Option (Except (Thrown α) α)
  | .settled result => some result
  | _ => none

/-- The results that wait for their reaction, by the calls. -/
def State.results (s : State α) : List (Option (Except (Thrown α) α)) :=
  s.runs.map fun r => r.stage.result?

/-- A result that waits was there, or is the one of the action. -/
def ResultsSince (s₀ : State α) (a₀ : Action α) (s : State α) : Prop :=
  ∀ (k : ℕ) result, s.results[k]? = some (some result) →
    s₀.results[k]? = some (some result) ∨ a₀ = .settleExecute k result

theorem results_modify (runs : List (Run α)) (k : ℕ) {f : Run α → Run α}
    (hf : ∀ r, (f r).stage = r.stage) :
    (runs.modify k f).map (fun r => r.stage.result?) = runs.map fun r => r.stage.result? := by
  refine List.ext_getElem? fun i => ?_
  rw [List.getElem?_map, List.getElem?_map, List.getElem?_modify]
  cases runs[i]? with
  | none => rfl
  | some r => by_cases hk : k = i <;> simp [hk, hf]

@[simp] theorem results_clearedRuns (runs : List (Run α)) (handle : Option ℕ) :
    (clearedRuns runs handle).map (fun r => r.stage.result?) =
      runs.map fun r => r.stage.result? := by
  cases handle with
  | none => rfl
  | some k => exact results_modify runs k fun _ => rfl

theorem ResultsSince.unchanged (ht : t.results = s₀.results) : ResultsSince s₀ a₀ t :=
  fun _ _ h => .inl (ht ▸ h)

theorem ResultsSince.same (h : ResultsSince s₀ a₀ s) (ht : t.results = s.results) :
    ResultsSince s₀ a₀ t :=
  fun k result hk => h k result (ht ▸ hk)

/-- A call that comes to a stage without a result. -/
theorem ResultsSince.setStage {k : ℕ} {x : Stage α} (hx : x.result? = none)
    (ht : t.runs = s₀.runs.modify k fun r => { r with stage := x }) :
    ResultsSince s₀ a₀ t := by
  intro i result hi
  rw [State.results, ht, List.getElem?_map, List.getElem?_modify] at hi
  left
  rw [State.results, List.getElem?_map]
  cases hr : s₀.runs[i]? with
  | none => simp [hr] at hi
  | some r => by_cases hk : k = i <;> simp_all

/-- A step adds no result but its own. -/
theorem results_turn (o : Options) (clock : ℕ → ℤ) (s₀ : State α) (a₀ : Action α) :
    Turn o clock (fun _ => True) (fun a s => a = a₀ ∧ s = s₀) (ResultsSince s₀ a₀) where
  stay := by
    rintro s a - ⟨-, rfl⟩
    exact .unchanged rfl
  tick _ h := h
  start job _ h _ _ := by
    rw [startPicked_eq]
    intro k result hk
    apply h k result
    rw [State.results, List.map_append, List.getElem?_append] at hk
    split at hk
    · exact hk
    · rw [List.map_singleton] at hk
      have hmem := List.mem_of_getElem? hk
      simp [newRun, Stage.result?] at hmem
  accept := by
    rintro s req - ⟨-, rfl⟩ -
    rw [accept_eq]
    exact .unchanged rfl
  disarm := by
    rintro s id job - ⟨-, rfl⟩ - - - -
    exact .unchanged rfl
  expire := by
    rintro s id job - ⟨-, rfl⟩ - - - -
    rw [expireQueued_eq]
    exact .unchanged rfl
  cancelQueued := by
    rintro s requestId job - ⟨-, rfl⟩ -
    rw [cancelQueued_eq]
    exact .unchanged (results_clearedRuns _ _)
  abort := by
    rintro s requestId job - ⟨-, rfl⟩ -
    exact .unchanged rfl
  timeOut := by
    rintro s k r - ⟨-, rfl⟩ - - - -
    rw [timeOut_eq]
    exact .unchanged (results_modify _ k fun _ => rfl)
  timeOutFree := by
    rintro s k r - ⟨-, rfl⟩ - - - -
    rw [freeSlot_eq, timeOut_eq]
    apply ResultsSince.unchanged
    rw [State.results, results_clearedRuns,
      results_modify (f := fun r => { r with released := true }) _ k fun _ => rfl]
    exact results_modify (f := fun r => { r with timer := false }) _ k fun _ => rfl
  call := by
    rintro s k r - ⟨-, rfl⟩ - -
    exact .setStage (x := .running) rfl rfl
  settle := by
    rintro s k r result - ⟨rfl, rfl⟩ hr -
    intro i found hi
    rw [State.results, List.getElem?_map, State.setRun, List.getElem?_modify] at hi
    by_cases hk : k = i
    · subst hk
      have heq : result = found := by simpa [hr, Stage.result?] using hi
      exact .inr (by rw [heq])
    · left
      rw [State.results, List.getElem?_map]
      simpa [hk] using hi
  react := by
    rintro s k r result - ⟨-, rfl⟩ - - ht
    rw [react_eq o clock ht]
    exact .setStage (x := .reacted) rfl rfl
  reactLate := by
    rintro s k r result - ⟨-, rfl⟩ - - -
    exact .setStage (x := .reacted) rfl rfl
  finish := by
    rintro s k r - ⟨-, rfl⟩ - - -
    exact .setStage (x := .finished) rfl rfl
  finishFree := by
    rintro s k r - ⟨-, rfl⟩ - - -
    rw [freeSlot_eq]
    apply (ResultsSince.setStage (x := .finished) (k := k) (t := s.setRun k fun r =>
      { r with stage := .finished }) rfl rfl).same
    rw [State.results, results_clearedRuns]
    exact results_modify (f := fun r => { r with released := true }) _ k fun _ => rfl

/-- A result that a call waits with is what its `execute` was settled with. -/
theorem mem_of_result {as : List (Action α)} (h : exec o clock as = some s) {k : ℕ} {r : Run α}
    (hr : s.runs[k]? = some r) {result : Except (Thrown α) α} (hst : r.stage = .settled result) :
    .settleExecute k result ∈ as := by
  have hend : s.results[k]? = some (some result) := by
    simp [State.results, hr, hst, Stage.result?]
  obtain ⟨pre, a, t, t', hp, -, hstep, -, hbefore, hafter⟩ := Machine.exists_step_of_exec
    (P := fun s : State α => s.results[k]? = some (some result)) (by simp [State.results, init])
    h hend
  obtain hold | rfl := (results_turn o clock t a).step kept_true trivial ⟨rfl, rfl⟩ hstep
    k result hafter
  · exact absurd hold hbefore
  · exact hp.subset (List.mem_append_right _ (List.mem_singleton_self _))

end Results

section Signals

/-- The signal of every job that has not run out of time is as it was, and down for a new job; a
signal that was raised stays so. -/
def SignalsSince (s₀ : State α) (s : State α) : Prop :=
  ∀ job ∈ s.jobs,
    job ∈ s₀.jobs ∧ ((s₀.cells job.id).aborted = true → (s.cells job.id).aborted = true) ∧
        ((s.cells job.id).execTimedOut = false →
          (s₀.cells job.id).execTimedOut = false ∧
            (s.cells job.id).aborted = (s₀.cells job.id).aborted) ∨
      job ∉ s₀.jobs ∧ (s.cells job.id).aborted = false

theorem SignalsSince.unchanged (hjobs : t.jobs = s₀.jobs)
    (hcells : ∀ id, (t.cells id).aborted = (s₀.cells id).aborted ∧
      (t.cells id).execTimedOut = (s₀.cells id).execTimedOut) : SignalsSince s₀ t := by
  intro job hj
  obtain ⟨haborted, htimed⟩ := hcells job.id
  rw [haborted, htimed]
  exact .inl ⟨hjobs ▸ hj, id, fun h => ⟨h, rfl⟩⟩

theorem SignalsSince.same (h : SignalsSince s₀ s) (hjobs : t.jobs = s.jobs)
    (hcells : ∀ id, (t.cells id).aborted = (s.cells id).aborted ∧
      (t.cells id).execTimedOut = (s.cells id).execTimedOut) : SignalsSince s₀ t := by
  intro job hj
  obtain ⟨haborted, htimed⟩ := hcells job.id
  rw [haborted, htimed]
  exact h job (hjobs ▸ hj)

/-- A change of one cell that leaves its signal. -/
theorem cells_update (cells : ℕ → Cell) (id : ℕ) {c : Cell}
    (haborted : c.aborted = (cells id).aborted)
    (htimed : c.execTimedOut = (cells id).execTimedOut) (i : ℕ) :
    (Function.update cells id c i).aborted = (cells i).aborted ∧
      (Function.update cells id c i).execTimedOut = (cells i).execTimedOut := by
  by_cases hi : i = id
  · subst hi
    simp [haborted, htimed]
  · simp [Function.update_of_ne hi]

/-- A job whose time runs out is aborted. -/
theorem SignalsSince.timeOut (o : Options) (clock : ℕ → ℤ) (s : State α) (k : ℕ) (r : Run α) :
    SignalsSince s (Scheduler.timeOut o clock s k r) := by
  rw [timeOut_eq]
  intro job hj
  left
  refine ⟨hj, ?_⟩
  by_cases hid : job.id = r.job.id
  · simp [hid]
  · simp [Function.update_of_ne hid]

/-- A step that is no `cancel` raises no signal but where a job runs out of time. -/
theorem signals_turn (o : Options) (clock : ℕ → ℤ) (s₀ : State α) :
    Turn o clock Shape (fun a s => (∀ requestId, a ≠ .cancel requestId) ∧ s = s₀)
      (SignalsSince s₀) where
  stay := by
    rintro s a - ⟨-, rfl⟩
    exact .unchanged rfl fun _ => ⟨rfl, rfl⟩
  tick _ h := h
  start job _ h _ _ := by
    rw [startPicked_eq]
    exact h.same rfl (cells_update _ _ rfl rfl)
  accept := by
    rintro s req hs ⟨-, rfl⟩ -
    rw [accept_eq]
    intro job hj
    rcases List.mem_append.mp hj with hold | hnew
    · have hne : job.id ≠ s.jobs.length := Nat.ne_of_lt (hs.id_lt hold)
      simp [hold, Function.update_of_ne hne]
    · rw [List.mem_singleton] at hnew
      subst hnew
      refine .inr ⟨fun hmem => ?_, by simp [newJob]⟩
      exact absurd (hs.id_lt hmem) (Nat.lt_irrefl _)
  disarm := by
    rintro s id job - ⟨-, rfl⟩ - - - -
    exact .unchanged rfl (cells_update _ _ rfl rfl)
  expire := by
    rintro s id job - ⟨-, rfl⟩ - - - -
    rw [expireQueued_eq]
    exact .unchanged rfl (cells_update _ _ rfl rfl)
  cancelQueued := by
    rintro s requestId job - ⟨hne, -⟩ -
    exact absurd rfl (hne requestId)
  abort := by
    rintro s requestId job - ⟨hne, -⟩ -
    exact absurd rfl (hne requestId)
  timeOut := by
    rintro s k r - ⟨-, rfl⟩ - - - -
    exact .timeOut o clock s k r
  timeOutFree := by
    rintro s k r - ⟨-, rfl⟩ - - - -
    rw [freeSlot_eq]
    exact (SignalsSince.timeOut o clock s k r).same rfl fun _ => ⟨rfl, rfl⟩
  call := by
    rintro s k r - ⟨-, rfl⟩ - -
    exact .unchanged rfl fun _ => ⟨rfl, rfl⟩
  settle := by
    rintro s k r result - ⟨-, rfl⟩ - -
    exact .unchanged rfl fun _ => ⟨rfl, rfl⟩
  react := by
    rintro s k r result - ⟨-, rfl⟩ - - ht
    rw [react_eq o clock ht]
    exact .unchanged rfl fun _ => ⟨rfl, rfl⟩
  reactLate := by
    rintro s k r result - ⟨-, rfl⟩ - - -
    exact .unchanged rfl fun _ => ⟨rfl, rfl⟩
  finish := by
    rintro s k r - ⟨-, rfl⟩ - - -
    exact .unchanged rfl fun _ => ⟨rfl, rfl⟩
  finishFree := by
    rintro s k r - ⟨-, rfl⟩ - - -
    rw [freeSlot_eq]
    exact .unchanged rfl fun _ => ⟨rfl, rfl⟩

/-- The job that a `cancel` aborts. -/
def State.aborts (s : State α) : Action α → Option Job
  | .cancel requestId =>
      if (s.queue.find? fun item => item.requestId = requestId).isNone then
        s.active.get? requestId
      else none
  | _ => none

/-- The signals after a step. -/
theorem signal_of_step (hs : Shape s) {a : Action α} (hstep : step o clock s a = some t)
    {job : Job} (hj : job ∈ t.jobs) :
    job ∈ s.jobs ∧ ((s.cells job.id).aborted = true → (t.cells job.id).aborted = true) ∧
        (s.aborts a = some job → (t.cells job.id).aborted = true) ∧
        ((t.cells job.id).execTimedOut = false → (s.cells job.id).execTimedOut = false ∧
          ((t.cells job.id).aborted = true →
            (s.cells job.id).aborted = true ∨ s.aborts a = some job)) ∨
      job ∉ s.jobs ∧ (t.cells job.id).aborted = false := by
  by_cases hcancel : ∃ requestId, a = .cancel requestId
  · obtain ⟨requestId, rfl⟩ := hcancel
    simp only [step, cancel, Option.some.injEq] at hstep
    subst hstep
    left
    cases hf : s.queue.find? fun item => item.requestId = requestId with
    | some other =>
        have hcells := cells_update s.cells other.id
          (c := { s.cells other.id with queueTimer := false }) rfl rfl job.id
        simp only [hf, cancelQueued_eq] at hj ⊢
        simp only [State.aborts, hf, hcells]
        exact ⟨hj, id, by simp, fun h => ⟨h, .inl⟩⟩
    | none =>
        cases hg : s.active.get? requestId with
        | none =>
            have hsame : (cancel o clock s requestId).1 = s := by
              simp only [cancel, hf, hg]
              split <;> rfl
            simp only [cancel, hf, hg] at hsame
            simp only [hf, hg] at hj ⊢
            rw [hsame] at hj ⊢
            simp only [State.aborts, hf, hg]
            exact ⟨hj, id, by simp, fun h => ⟨h, .inl⟩⟩
        | some active =>
            simp only [hf, hg] at hj ⊢
            simp only [State.aborts, hf, hg, Option.isNone_none, if_true, Option.some.injEq]
            have hjobs : job ∈ s.jobs := hj
            by_cases hid : job.id = active.id
            · have heq : job = active := hs.eq_of_id_eq hjobs (hs.activated _ _ hg) hid
              subst heq
              simp [abort, State.setCell, hjobs]
            · have hne : active ≠ job := fun h => hid (h ▸ rfl)
              simp [abort, State.setCell, hjobs, Function.update_of_ne hid, hne]
  · have hnone : s.aborts a = none := by
      cases a with
      | cancel requestId => exact absurd ⟨requestId, rfl⟩ hcancel
      | _ => rfl
    obtain ⟨hold, hkeep, hsame⟩ | hnew := (signals_turn o clock s).step (Shape.kept o clock) hs
      ⟨fun requestId h => hcancel ⟨requestId, h⟩, rfl⟩ hstep job hj
    · refine .inl ⟨hold, hkeep, by simp [hnone], fun htimed => ?_⟩
      obtain ⟨htimed, haborted⟩ := hsame htimed
      exact ⟨htimed, fun h => .inl (haborted ▸ h)⟩
    · exact .inr hnew

theorem signalled_of_aborts {as : List (Action α)} {a : Action α} {job : Job}
    (h : exec o clock as = some s) (ha : s.aborts a = some job) :
    Signalled o clock (as ++ [a]) job := by
  cases a with
  | cancel requestId =>
      simp only [State.aborts] at ha
      split at ha
      · rename_i hnone
        exact ⟨as, requestId, s, List.prefix_rfl, h, Option.isNone_iff_eq_none.mp hnone, ha⟩
      · cases ha
  | _ => cases ha

theorem Signalled.mono {as bs : List (Action α)} {job : Job} (h : Signalled o clock as job)
    (hp : as <+: bs) : Signalled o clock bs job := by
  obtain ⟨pre, requestId, s, hpre, hrest⟩ := h
  exact ⟨pre, requestId, s, hpre.trans hp, hrest⟩

/-- The signal of a job that has not run out of time is raised exactly by a `cancel`. -/
theorem aborted_iff {as : List (Action α)} (h : exec o clock as = some s) {job : Job}
    (hj : job ∈ s.jobs) (htimed : (s.cells job.id).execTimedOut = false) :
    (s.cells job.id).aborted = true ↔ Signalled o clock as job := by
  constructor
  · intro haborted
    induction as using List.reverseRecOn generalizing s with
    | nil =>
        cases h
        cases hj
    | append_singleton as a ih =>
        rw [exec, Machine.exec_snoc] at h
        obtain ⟨t, ht, hta⟩ := Option.bind_eq_some_iff.mp h
        have hshape : Shape t := shape_of_exec ht
        obtain ⟨hold, -, -, hback⟩ | ⟨-, hdown⟩ := signal_of_step hshape hta hj
        · obtain ⟨htimed, hback⟩ := hback htimed
          rcases hback haborted with hbefore | hnow
          · exact (ih ht hold htimed hbefore).mono (List.prefix_append as [a])
          · exact signalled_of_aborts ht hnow
        · rw [hdown] at haborted
          cases haborted
  · rintro ⟨pre, requestId, u, ⟨rest, rfl⟩, hu, hnone, hactive⟩
    obtain ⟨v, hv⟩ := Machine.exec_prefix (List.prefix_append (pre ++ [_]) rest) h
    have hstep : step o clock u (.cancel requestId) = some v := by
      have hpre : Machine.exec (step o clock) (init o) pre = some u := hu
      rwa [Machine.exec_snoc, hpre, Option.bind_some] at hv
    have hshape : Shape u := shape_of_exec hu
    have hkept := grown_of_step hstep
    have hraised : job ∈ v.jobs ∧ (v.cells job.id).aborted = true := by
      have hin : job ∈ v.jobs := hkept.jobs.subset (hshape.activated _ _ hactive)
      refine ⟨hin, ?_⟩
      obtain ⟨-, -, hnow, -⟩ | ⟨hnot, -⟩ := signal_of_step hshape hstep hin
      · exact hnow (by simp [State.aborts, hnone, hactive])
      · exact absurd (hshape.activated _ _ hactive) hnot
    rw [exec, Machine.exec_append, hv, Option.bind_some] at h
    have hlast := Machine.exec_invariant_under (P := Shape)
      (Q := fun s : State α => job ∈ s.jobs ∧ (s.cells job.id).aborted = true)
      (shape_of_exec hv) hraised
      (fun _ _ _ ht hs => (Shape.kept o clock).step kept_true trivial ht hs) ?_ h
    · exact hlast.2
    · intro t a t' ht hraised hs
      have hgrown := grown_of_step hs
      have hin : job ∈ t'.jobs := hgrown.jobs.subset hraised.1
      obtain ⟨-, hkeep, -, -⟩ | ⟨hnot, -⟩ := signal_of_step ht hs hin
      · exact ⟨hin, hkeep hraised.2⟩
      · exact absurd hraised.1 hnot

end Signals

end ServeInfer.Scheduler
