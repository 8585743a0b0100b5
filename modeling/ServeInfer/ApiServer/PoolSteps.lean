import ServeInfer.ApiServer.Occupancy

/-!
# Every step of the worker pool

From books in order every step is a chain of moves. So in every run each busy
worker has exactly one entry in flight, and no other worker has any.
-/

namespace ServeInfer.ApiServer

namespace WorkerPool

variable {o : Options} {s s' : WorkerPool} {w : ℤ} {r : ℕ}

theorem Entered.isOpen {c : Core} (h : s.Entered) (hc : s.cores[r]? = some c)
    (hdone : c.done = false) : s.Open r c :=
  ⟨hc, hdone, (h.filed hc hdone).2, h.present hc hdone⟩

theorem core_of_run {run : Run} (hr : s.runs[r]? = some run) : s.cores[r]? = some run.core := by
  rw [getElem?_cores, hr, Option.map_some]

theorem moves_quiet (hq : s.Quiet s') : Moves s s' := .single (.quiet hq)

theorem Entered.moves_failInFlight (h : s.Entered) (r : ℕ) (err : WorkerPoolError) :
    Moves s (s.failInFlight o r err) := by
  cases hr : s.runs[r]? with
  | none =>
      have hsame : s.failInFlight o r err = s := by simp only [failInFlight, hr]
      rw [hsame]
  | some run =>
      cases hdone : run.done with
      | true => exact moves_quiet (quiet_failInFlight hr hdone err)
      | false => exact .single (.ended _ _ _ ((h.isOpen (core_of_run hr) hdone).failInFlight err))

theorem Entered.moves_failRun (h : s.Entered) (r : ℕ) (err : WorkerPoolError) :
    Moves s (s.failRun o r err) := by
  cases hr : s.runs[r]? with
  | none =>
      have hsame : s.failRun o r err = s := by simp only [failRun, hr]
      rw [hsame]
  | some run =>
      cases hdone : run.done with
      | true => exact moves_quiet (quiet_failRun hr hdone err)
      | false => exact .single (.ended _ _ _ ((h.isOpen (core_of_run hr) hdone).failRun err))

theorem Entered.moves_onResult (h : s.Entered) (r : ℕ) (msg : Json) :
    Moves s (s.onResult o r msg) := by
  cases hr : s.runs[r]? with
  | none =>
      have hsame : s.onResult o r msg = s := by simp only [onResult, hr]
      rw [hsame]
  | some run =>
      cases hdone : run.done with
      | true => rw [onResult_done hr hdone]
      | false => exact .single (.ended _ _ _ ((h.isOpen (core_of_run hr) hdone).onResult msg))

theorem quiet_onToken (s : WorkerPool) (r : ℕ) (token : JsString) : s.Quiet (s.onToken r token) :=
  quiet_setRun s r fun _ _ => rfl

theorem Entered.moves_onLine (h : s.Entered) (r : ℕ) (line : JsString) :
    Moves s (s.onLine o r line).1 := by
  unfold onLine
  split
  · exact .refl
  · split
    · exact .refl
    · exact h.moves_failRun r _
    · exact moves_quiet ⟨rfl, rfl, rfl⟩
    · split_ifs
      · exact moves_quiet ⟨rfl, rfl, rfl⟩
      · exact moves_quiet (quiet_onToken _ _ _)
      · exact h.moves_failRun r _
      · exact h.moves_onResult r _
      · exact .refl

theorem Entered.moves_drain (h : s.Entered) (r : ℕ) (lines : List JsString) :
    Moves s (drain o r lines s).1 := by
  induction lines generalizing s with
  | nil => exact .refl
  | cons line lines ih =>
      cases lines with
      | nil => exact .refl
      | cons next lines =>
          have hline := h.moves_onLine (o := o) r (Json.trim line)
          unfold drain
          split
          · rename_i heq
            rw [heq] at hline
            exact hline.trans (ih (h.moves hline))
          · rename_i heq
            rw [heq] at hline
            exact hline

theorem Entered.moves_onData (h : s.Entered) (r : ℕ) (chunk : List UInt8) :
    Moves s (s.onData o r chunk) := by
  unfold onData
  split
  · exact .refl
  · exact (h.moves_drain r _).trans (moves_quiet (quiet_setRun _ _ fun _ _ => rfl))

theorem quiet_errored (s : WorkerPool) (r : ℕ) : s.Quiet (s.errored r) :=
  quiet_setRun s r fun _ _ => rfl

theorem quiet_closed (s : WorkerPool) (r : ℕ) : s.Quiet (s.closed r) :=
  quiet_setRun s r fun _ _ => rfl

theorem Entered.moves_onError (h : s.Entered) (r : ℕ) (message : JsString) :
    Moves s (s.onError o r message) := by
  unfold onError
  split
  · exact .refl
  · exact h.moves_failRun r _

theorem Entered.moves_onClose (h : s.Entered) (r : ℕ) : Moves s (s.onClose o r) := by
  unfold onClose
  split
  · exact .refl
  · split
    · exact .refl
    · exact h.moves_failRun r _

theorem quiet_connectTimeout (s : WorkerPool) (r : ℕ) : s.Quiet (s.connectTimeout r) := by
  unfold connectTimeout
  split
  · exact .refl s
  · apply Quiet.trans _ (quiet_destroy _ _ _)
    exact quiet_setRun s r fun _ _ => rfl

/-- Giving a present worker that is not busy a status that is not busy. -/
theorem restatus_setWorker {e : WorkerEntry} {st : WorkerStatus} {f : WorkerEntry → WorkerEntry}
    (he : s.workers.get? w = some e) (hidle : e.status ≠ .busy) (hst : st ≠ .busy)
    (hf : ∀ e, (f e).status = st) : s.Restatus (s.setWorker w f) w st where
  present := Option.isSome_of_eq_some (status_of_get? he)
  idle := by
    rw [status_of_get? he]
    exact fun heq => hidle (Option.some.inj heq)
  status := status_setWorker (Option.isSome_of_eq_some (status_of_get? he)) fun e _ => hf e
  inFlight := inFlight_setWorker s w f
  cores := by rw [cores, runs_setWorker, cores]
  ne := hst

theorem moves_refreshWorker (reading : Reading) (s : WorkerPool) (w : ℤ) :
    Moves s (s.refreshWorker o reading w) := by
  unfold refreshWorker
  split
  · exact .refl
  · rename_i e he
    split
    · exact .refl
    · rename_i hsettled
      have hidle : e.status ≠ .busy := fun hbusy => hsettled (.inl hbusy)
      split
      · exact .single (.restatus w .ready (restatus_setWorker he hidle (by simp) fun _ => rfl))
      · split
        · have hcrashed : (s.clearTimeout e.recoveryTimer).Restatus
              ((s.clearTimeout e.recoveryTimer).setWorker w fun e =>
                { e with status := .crashed, recoveryTimer := none, recoveryAttempt := 0 })
              w .crashed := restatus_setWorker he hidle (by simp) fun _ => rfl
          exact ((moves_quiet (quiet_clearTimeout s _)).tail (.restatus w .crashed hcrashed)).tail
            (.quiet (quiet_scheduleRecoveryProbe _ _))
        · exact .single (.restatus w .starting (restatus_setWorker he hidle (by simp) fun _ => rfl))

theorem moves_refreshWorkerReadiness (s : WorkerPool) (reading : Reading) :
    Moves s (s.refreshWorkerReadiness o reading) := by
  unfold refreshWorkerReadiness
  generalize s.workers.keys = keys
  induction keys generalizing s with
  | nil => exact .refl
  | cons w keys ih => exact (moves_refreshWorker reading s w).trans (ih _)

/-- What `runInference` and `runStreamingInference` do: a refresh, and a run if a worker is
ready. -/
theorem infer_cases (s : WorkerPool) (reading : Reading) (request : InferRequest) :
    (s.infer o reading request = (none, s.refreshWorkerReadiness o reading)) ∨
      ∃ w, (s.refreshWorkerReadiness o reading).status w = some .ready ∧
        s.infer o reading request = (some (s.refreshWorkerReadiness o reading).runs.length,
          ((s.refreshWorkerReadiness o reading).setWorker w fun e =>
            { e with status := .busy }).openRun w request) := by
  unfold infer acquireWorker
  dsimp only
  cases hfind : (s.refreshWorkerReadiness o reading).workers.entries.find? fun e =>
      e.2.status = .ready with
  | none => exact .inl rfl
  | some e =>
      obtain ⟨w, e⟩ := e
      have hmem := List.mem_of_find?_eq_some hfind
      have hready : e.status = .ready := by simpa using List.find?_some hfind
      refine .inr ⟨w, ?_, ?_⟩
      · rw [status_of_get? (OrderedMap.get?_eq_some_iff.mpr hmem), hready]
      · dsimp only
        rw [runs_setWorker]

theorem opened_openRun {request : InferRequest} (hw : s.status w = some .ready)
    (hfresh : s.inFlight.get? request.requestId = none) :
    s.Opened ((s.setWorker w fun e => { e with status := .busy }).openRun w request) w request where
  ready := hw
  fresh := hfresh
  status := status_setWorker (Option.isSome_of_eq_some hw) fun _ _ => rfl
  inFlight := by
    show OrderedMap.set _ _ _ = _
    rw [inFlight_setWorker, runs_setWorker]
  cores := by
    show ((s.setWorker w _).runs ++ [_]).map Run.core = s.runs.map Run.core ++ [_]
    rw [runs_setWorker, List.map_append]
    rfl

theorem inFlight_refreshWorker (reading : Reading) (s : WorkerPool) (w : ℤ) :
    (s.refreshWorker o reading w).inFlight = s.inFlight := by
  unfold refreshWorker
  split
  · rfl
  · split_ifs
    · rfl
    · exact inFlight_setWorker s w _
    · rw [(quiet_scheduleRecoveryProbe _ w).inFlight, inFlight_setWorker]
      rfl
    · exact inFlight_setWorker s w _

/-- A refresh leaves the entries in flight. -/
theorem inFlight_refreshWorkerReadiness (s : WorkerPool) (reading : Reading) :
    (s.refreshWorkerReadiness o reading).inFlight = s.inFlight := by
  unfold refreshWorkerReadiness
  generalize s.workers.keys = keys
  induction keys generalizing s with
  | nil => rfl
  | cons w keys ih => rw [List.foldl_cons, ih, inFlight_refreshWorker]

theorem moves_infer (s : WorkerPool) (reading : Reading) {request : InferRequest}
    (hfresh : s.inFlight.get? request.requestId = none) :
    Moves s (s.infer o reading request).2 := by
  have hrefresh := moves_refreshWorkerReadiness (o := o) s reading
  obtain hnone | ⟨w, hw, heq⟩ := infer_cases (o := o) s reading request
  · rw [hnone]
    exact hrefresh
  · rw [heq]
    refine hrefresh.tail (.opened w request (opened_openRun hw ?_))
    rw [inFlight_refreshWorkerReadiness, hfresh]

theorem quiet_tail (s : WorkerPool) (w : ℤ) (timer : Option ℕ) :
    s.Quiet (((s.clearTimeout timer).setWorker w fun e =>
      { e with recoveryAttempt := 0 }).scheduleRecoveryProbe o w) := by
  apply Quiet.trans _ (quiet_scheduleRecoveryProbe _ _)
  apply (quiet_clearTimeout s timer).trans
  exact quiet_setWorker _ w fun _ _ => rfl

/-- A worker that is busy has one entry, and one that is not has none. -/
theorem Booked.entries_of (h : s.Booked) (w : ℤ) :
    (s.inFlight.entries.filter fun e => e.2.workerId = w) = [] ∧ s.status w ≠ some .busy ∨
      ∃ id e, (s.inFlight.entries.filter fun e => e.2.workerId = w) = [(id, e)] ∧
        s.inFlight.get? id = some e ∧ e.workerId = w ∧ s.status w = some .busy := by
  have hmem : ∀ {id e}, (id, e) ∈ s.inFlight.entries.filter (fun e => e.2.workerId = w) ↔
      s.inFlight.get? id = some e ∧ e.workerId = w := by
    intro id e
    rw [List.mem_filter, OrderedMap.get?_eq_some_iff, decide_eq_true_eq]
  have hnodup := (List.Nodup.of_map Prod.fst s.inFlight.nodup).filter
    fun e => decide (e.2.workerId = w)
  cases hl : s.inFlight.entries.filter fun e => e.2.workerId = w with
  | nil =>
      refine .inl ⟨rfl, fun hbusy => ?_⟩
      obtain ⟨id, e, he, hew⟩ := h.busy hbusy
      have hin := hmem.mpr ⟨he, hew⟩
      rw [hl] at hin
      exact absurd hin List.not_mem_nil
  | cons x rest =>
      obtain ⟨id, e⟩ := x
      have hx := hmem.mp (hl ▸ List.mem_cons_self)
      cases rest with
      | nil =>
          refine .inr ⟨id, e, rfl, hx.1, hx.2, ?_⟩
          have hbusy := (h.entry hx.1).2
          rwa [hx.2] at hbusy
      | cons y rest =>
          obtain ⟨id', e'⟩ := y
          have hy := hmem.mp (hl ▸ List.mem_cons_of_mem _ List.mem_cons_self)
          obtain rfl := h.unique hx.1 hy.1 (hx.2.trans hy.2.symm)
          obtain rfl := Option.some.inj (hx.1.symm.trans hy.1)
          rw [hl, List.nodup_cons] at hnodup
          exact absurd List.mem_cons_self hnodup.1

/-- A crash notice without a request id: the worker's run, if it has one, ends. -/
theorem Booked.moves_markWorkerCrashed (h : s.Booked) (w : ℤ) :
    Moves s (s.markWorkerCrashed o w []) := by
  unfold markWorkerCrashed
  split
  · exact .refl
  · rename_i e he
    have hset : (s.setWorker w fun e => { e with status := .crashed }).status =
        Function.update s.status w (some .crashed) :=
      status_setWorker (Option.isSome_of_eq_some (status_of_get? he)) fun _ _ => rfl
    have haffected : (s.setWorker w fun e => { e with status := .crashed }).affected w [] =
        s.inFlight.entries.filter fun e => e.2.workerId = w := by
      simp only [affected, List.isEmpty_nil, inFlight_setWorker]
    dsimp only
    rw [haffected]
    obtain ⟨hnone, hidle⟩ | ⟨id, entry, hone, hentry, rfl, hbusy⟩ := h.entries_of w
    · rw [hnone]
      have hcrashed : s.Restatus (s.setWorker w fun e => { e with status := .crashed }) w .crashed :=
        restatus_setWorker he (fun hb => hidle (by rw [status_of_get? he, hb])) (by simp)
          fun _ => rfl
      exact (Relation.ReflTransGen.single (.restatus w .crashed hcrashed)).tail
        (.quiet (quiet_tail _ w _))
    · rw [hone]
      obtain ⟨⟨c, hc, hcw, hcid, hdone⟩, -⟩ := h.entry hentry
      have hcores : (s.setWorker entry.workerId fun e => { e with status := .crashed }).cores =
          s.cores := by rw [cores, runs_setWorker, cores]
      have hopen : (s.setWorker entry.workerId fun e => { e with status := .crashed }).Open
          entry.run c :=
        { found := hcores ▸ hc
          undone := hdone
          dirty := (h.filed hc hdone).2
          present := by rw [hset, hcw, Function.update_self]; rfl }
      have hended := hopen.failInFlight (o := o) (crashError entry.workerId id)
      have hstatus : abandoned ((s.setWorker entry.workerId fun e =>
          { e with status := .crashed }).status c.workerId) ErrorCode.workerCrashed = .crashed := by
        rw [hset, hcw, Function.update_self]
        rfl
      rw [crashError, hstatus] at hended
      have hwhole : s.Ended ((s.setWorker entry.workerId fun e =>
          { e with status := .crashed }).failInFlight o entry.run (crashError entry.workerId id))
          entry.run c .crashed :=
        { found := hc
          undone := hdone
          status := by
            rw [crashError, hended.status, hset, hcw, Function.update_idem]
          inFlight := by
            rw [crashError, hended.inFlight, inFlight_setWorker]
          cores := by
            rw [← hcores]
            exact hended.cores
          length := by
            rw [← hcores]
            exact hended.length
          ne := by simp }
      exact (Relation.ReflTransGen.single (.ended _ _ _ hwhole)).tail (.quiet (quiet_tail _ _ _))

theorem moves_scheduleRecoveryProbe (s : WorkerPool) (w : ℤ) :
    Moves s (s.scheduleRecoveryProbe o w) :=
  moves_quiet (quiet_scheduleRecoveryProbe s w)

/-- A worker that is not busy is brought back. -/
theorem moves_revive (s : WorkerPool) (w now : ℤ) {st : WorkerStatus} (hst : st ≠ .busy) :
    Moves s (s.revive w now st) := by
  unfold revive
  split
  · exact .refl
  · rename_i e he
    split
    · exact .refl
    · rename_i hidle
      apply (moves_quiet (quiet_clearTimeout s e.recoveryTimer)).tail
      exact .restatus w st (restatus_setWorker he hidle hst fun _ => rfl)

theorem moves_probed (s : WorkerPool) (w now : ℤ) (alive : Bool) :
    Moves s (s.probed o w now alive) := by
  unfold probed
  split
  · exact .refl
  · rename_i e he
    split
    · exact .refl
    · rename_i hcrashed
      have hidle : e.status ≠ .busy := by
        rw [Decidable.not_not.mp hcrashed]
        simp
      split
      · exact .single (.restatus w .ready (restatus_setWorker he hidle (by simp) fun _ => rfl))
      · exact moves_scheduleRecoveryProbe s w

theorem moves_onRecoveryTimer (s : WorkerPool) (timer : RecoveryTimer) (reading : Reading) :
    Moves s (s.onRecoveryTimer o timer reading) := by
  unfold onRecoveryTimer
  dsimp only
  have hcleared := moves_quiet (quiet_clearTimeout s (some timer.id))
  split
  · exact hcleared.trans (moves_quiet ⟨rfl, rfl, rfl⟩)
  · exact hcleared.trans (moves_probed _ _ _ _)

theorem moves_onProbe (s : WorkerPool) (probe : Probe) (now : ℤ) (alive : Bool) :
    Moves s (s.onProbe o probe now alive) := by
  have hdropped : Moves s { s with probes := s.probes.filter fun p => p.id ≠ probe.id } :=
    moves_quiet ⟨rfl, rfl, rfl⟩
  exact hdropped.trans (moves_probed _ _ _ _)

/-- A message as the supervisor sends it: its crash notices name no request. -/
def fromSupervisor : SupervisorMessage → Prop
  | .workerCrashed _ requestId => requestId = []
  | .workerRestarted _ => True
  | .workerReady _ => True

theorem moves_workerRestarted (s : WorkerPool) (w now : ℤ) :
    Moves s (s.handleSupervisorMessage o now (.workerRestarted w)) := by
  unfold handleSupervisorMessage
  dsimp only
  split
  · exact .refl
  · split
    · exact .refl
    · have hcrashed : Moves s (s.revive w now .crashed) := moves_revive s w now (by simp)
      exact hcrashed.trans (moves_scheduleRecoveryProbe _ w)

end WorkerPool

/-- The supervisor's messages among the steps are as it sends them. -/
def PoolAction.plain : PoolAction → Prop
  | .supervisor _ msg => WorkerPool.fromSupervisor msg
  | _ => True

namespace WorkerPool

variable {o : Options} {s s' : WorkerPool} {w : ℤ} {r : ℕ} {a : PoolAction}

theorem guardRun_eq {ok : Run → Bool} {next : WorkerPool} (h : s.guardRun r ok next = some s') :
    ∃ run, s.runs[r]? = some run ∧ ok run = true ∧ s' = next := by
  unfold guardRun at h
  split at h
  · cases h
  · rename_i run hr
    split at h
    · rename_i hok
      exact ⟨run, hr, hok, (Option.some.inj h).symm⟩
    · cases h

/-- From entries in order, a step is a chain of moves, unless a worker is reported dead. -/
theorem Entered.moves_step (h : s.Entered)
    (ha : ∀ now w requestId, a ≠ .supervisor now (.workerCrashed w requestId))
    (hs : poolStep o s a = some s') : Moves s s' := by
  unfold poolStep at hs
  split at hs
  · cases hs
  cases a with
  | infer reading request =>
      dsimp only at hs
      split at hs
      · cases hs
      · rename_i hfresh
        obtain rfl := Option.some.inj hs
        refine moves_infer s reading ?_
        rw [OrderedMap.has_iff] at hfresh
        exact OrderedMap.get?_eq_none_iff.mpr hfresh
  | getHealth reading =>
      obtain rfl := Option.some.inj hs
      exact moves_refreshWorkerReadiness s reading
  | supervisor now msg =>
      obtain rfl := Option.some.inj hs
      cases msg with
      | workerCrashed w requestId => exact absurd rfl (ha now w requestId)
      | workerRestarted w => exact moves_workerRestarted s w now
      | workerReady w => exact moves_revive s w now (by simp)
  | connect r =>
      obtain ⟨-, -, -, rfl⟩ := guardRun_eq hs
      exact moves_quiet (quiet_setRun s r fun _ _ => rfl)
  | data r chunk =>
      obtain ⟨-, -, -, rfl⟩ := guardRun_eq hs
      exact h.moves_onData r chunk
  | error r message =>
      obtain ⟨-, -, -, rfl⟩ := guardRun_eq hs
      have hquiet := moves_quiet (quiet_errored s r)
      exact hquiet.trans ((h.moves hquiet).moves_onError r message)
  | close r =>
      obtain ⟨-, -, -, rfl⟩ := guardRun_eq hs
      have hquiet := moves_quiet (quiet_closed s r)
      exact hquiet.trans ((h.moves hquiet).moves_onClose r)
  | connectTimeout r =>
      obtain ⟨-, -, -, rfl⟩ := guardRun_eq hs
      exact moves_quiet (quiet_connectTimeout s r)
  | cancel r =>
      obtain ⟨-, -, -, rfl⟩ := guardRun_eq hs
      exact h.moves_failInFlight r _
  | recoveryTimer id reading =>
      obtain ⟨timer, -, rfl⟩ := Option.map_eq_some_iff.mp hs
      exact moves_onRecoveryTimer s timer reading
  | probe id now alive =>
      obtain ⟨probe, -, rfl⟩ := Option.map_eq_some_iff.mp hs
      exact moves_onProbe s probe now alive

/-- A crash notice is no step of a pool that has thrown. -/
theorem crashed_of_step {now w : ℤ} {requestId : JsString}
    (hs : poolStep o s (.supervisor now (.workerCrashed w requestId)) = some s') :
    s' = s.markWorkerCrashed o w requestId := by
  unfold poolStep at hs
  split at hs
  · cases hs
  · exact (Option.some.inj hs).symm

/-- From books in order, a step is a chain of moves. -/
theorem Booked.moves_step (h : s.Booked) (ha : a.plain) (hs : poolStep o s a = some s') :
    Moves s s' := by
  by_cases hcrash : ∃ now w requestId, a = .supervisor now (.workerCrashed w requestId)
  · obtain ⟨now, w, requestId, rfl⟩ := hcrash
    obtain rfl := crashed_of_step hs
    obtain rfl : requestId = [] := ha
    exact h.moves_markWorkerCrashed w
  · exact h.entered.moves_step
      (fun now w requestId heq => hcrash ⟨now, w, requestId, heq⟩) hs

theorem status_set_starting (m : OrderedMap ℤ WorkerEntry) (w now : ℤ)
    (h : ∀ w e, m.get? w = some e → e.status = .starting) :
    ∀ w' e, (m.set w { startedAt := now }).get? w' = some e → e.status = .starting := by
  intro w' e he
  rw [OrderedMap.get?_set] at he
  split at he
  · rw [← Option.some.inj he]
  · exact h w' e he

/-- Every worker of a new pool is starting. -/
theorem status_new (o : Options) (now : ℤ) {e : WorkerEntry}
    (he : (WorkerPool.new o now).workers.get? w = some e) : e.status = .starting := by
  suffices hall : ∀ (l : List ℕ) (m : OrderedMap ℤ WorkerEntry),
      (∀ w e, m.get? w = some e → e.status = .starting) →
      ∀ w e, (l.foldl (fun workers (i : ℕ) => workers.set (i : ℤ) { startedAt := now }) m).get? w =
        some e → e.status = .starting by
    exact hall _ _ (fun _ _ hnone => by simp at hnone) _ _ he
  intro l
  induction l with
  | nil => exact fun m hm => hm
  | cons i l ih => exact fun m hm => ih _ (status_set_starting m i now hm)

theorem booked_new (o : Options) (now : ℤ) : (WorkerPool.new o now).Booked where
  entry := fun h => by simp [WorkerPool.new] at h
  unique := fun h => by simp [WorkerPool.new] at h
  busy := fun {w} h => by
    obtain ⟨e, he, hbusy⟩ := Option.map_eq_some_iff.mp h
    rw [status_new o now he] at hbusy
    cases hbusy
  filed := fun h => by simp [WorkerPool.new, cores] at h

theorem Booked.step (h : s.Booked) (ha : a.plain) (hs : poolStep o s a = some s') : s'.Booked :=
  h.moves (h.moves_step ha hs)

/-- The books are in order after every run of the pool. -/
theorem booked_of_exec {now : ℤ} {as : List PoolAction}
    (hrun : Machine.exec (poolStep o) (WorkerPool.new o now) as = some s)
    (hplain : ∀ a ∈ as, a.plain) : s.Booked := by
  have hguarded : Machine.Guarded (poolStep o) (fun _ a => a.plain) (WorkerPool.new o now) as :=
    fun pre a hp _ _ => hplain a (hp.subset (by simp))
  exact hguarded.invariant (booked_new o now) (fun _ _ _ h ha hs => h.step ha hs) hrun

/-- How many requests are in flight on the worker. -/
def load (s : WorkerPool) (w : ℤ) : ℕ :=
  s.inFlight.entries.countP fun e => e.2.workerId = w

/-- In every state of the pool no worker has two requests in flight, a busy one has one, and one
that is ready, starting or crashed has none. -/
theorem worker_occupancy {now : ℤ} {as : List PoolAction}
    (hrun : Machine.exec (poolStep o) (WorkerPool.new o now) as = some s)
    (hplain : ∀ a ∈ as, a.plain) (w : ℤ) :
    s.load w ≤ 1 ∧ (s.status w = some .busy → s.load w = 1) ∧
      ∀ st, s.status w = some st → st = .ready ∨ st = .starting ∨ st = .crashed → s.load w = 0 := by
  rw [load, List.countP_eq_length_filter]
  obtain ⟨hnone, hidle⟩ | ⟨id, e, hone, -, -, hbusy⟩ :=
    (booked_of_exec hrun hplain).entries_of w
  · rw [hnone]
    refine ⟨Nat.zero_le 1, fun hbusy => absurd hbusy hidle, fun _ _ _ => rfl⟩
  · rw [hone]
    refine ⟨Nat.le_refl 1, fun _ => rfl, fun st hst hidle => ?_⟩
    obtain rfl := Option.some.inj (hbusy.symm.trans hst)
    simp at hidle

/-- A buffered request on worker 0 and a streaming one on worker 1; worker 0 is reported dead
while both are in flight. -/
def crashUnderLoad : List PoolAction :=
  [.infer ⟨100, fun _ => true⟩ ⟨Json.units "a", Json.units "hi", [], false⟩, .connect 0,
    .infer ⟨110, fun _ => true⟩ ⟨Json.units "b", Json.units "hi", [], true⟩, .connect 1,
    .supervisor 120 (.workerCrashed 0 [])]

def twoWorkers : Options where
  workerCount := 2
  connectTimeoutMs := 1000
  numberText := id

theorem worker_occupancy_crashUnderLoad :
    ∃ s, Machine.exec (poolStep twoWorkers) (.new twoWorkers 0) crashUnderLoad = some s ∧
      s.load 0 = 0 ∧ s.load 1 = 1 := by
  have hrun : (Machine.exec (poolStep twoWorkers) (.new twoWorkers 0) crashUnderLoad).map
      (fun s => (s.status 0, s.status 1)) = some (some .crashed, some .busy) := by
    decide
  obtain ⟨s, hs, hstatus⟩ := Option.map_eq_some_iff.mp hrun
  rw [Prod.mk.injEq] at hstatus
  have hplain : ∀ a ∈ crashUnderLoad, a.plain := by
    simp [crashUnderLoad, PoolAction.plain, fromSupervisor]
  obtain ⟨-, -, hcrashed⟩ := worker_occupancy hs hplain 0
  obtain ⟨-, hbusy, -⟩ := worker_occupancy hs hplain 1
  exact ⟨s, hs, hcrashed .crashed hstatus.1 (.inr (.inr rfl)), hbusy hstatus.2⟩

end WorkerPool

end ServeInfer.ApiServer
