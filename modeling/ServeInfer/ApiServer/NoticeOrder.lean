import ServeInfer.ApiServer.CrashNotice
import ServeInfer.ApiServer.FreshEvidence

/-!
# The order of the two notices

The supervisor tells of a crash and of the restart over two connections. A restart notice that
comes first arms a probe, or does nothing at a busy worker; the crash notice arms it anew either
way, and so does a restart notice behind it.
-/

namespace ServeInfer.ApiServer

namespace WorkerPool

variable {o : Options} {s s' : WorkerPool} {w : ℤ} {entry : WorkerEntry}

/-- The delays of the pending recovery timers of a worker. -/
def pendingDelays (s : WorkerPool) (w : ℤ) : List ℤ :=
  (s.timers.filter fun t => t.workerId = w).map RecoveryTimer.delay

/-- What the two orders are compared by. -/
structure SameAftermath (s s' : WorkerPool) (w : ℤ) : Prop where
  status : s'.status w = s.status w
  recoveryAttempt : (s'.workers.get? w).map WorkerEntry.recoveryAttempt =
    (s.workers.get? w).map WorkerEntry.recoveryAttempt
  inFlight : s'.inFlight = s.inFlight
  runs : s'.runs = s.runs
  pending : s'.pendingDelays w = s.pendingDelays w

/-- The recorded timer is cleared and the chain starts over with a whole budget. -/
def rearm (o : Options) (s : WorkerPool) (w : ℤ) (f : WorkerEntry → WorkerEntry) : WorkerPool :=
  ((s.clearTimeout ((s.workers.get? w).bind WorkerEntry.recoveryTimer)).setWorker w
    f).scheduleRecoveryProbe o w

/-- The timer that a whole budget allows. -/
def firstTimer (o : Options) (w : ℤ) (id : ℕ) : List RecoveryTimer :=
  if o.recoveryAttempts ≤ 0 then [] else [⟨id, w, o.recoveryMs⟩]

/-- What is left of a worker's recovery when it has been rearmed. -/
structure Rearms (o : Options) (s s' : WorkerPool) (w : ℤ) : Prop where
  entry : ∃ e, s'.workers.get? w = some e ∧ e.status = .crashed ∧
    e.recoveryAttempt = (if o.recoveryAttempts ≤ 0 then 0 else 1) ∧
    (0 < o.recoveryAttempts → e.recoveryTimer = some s.nextTimer) ∧
    (o.recoveryAttempts ≤ 0 → e.recoveryTimer = none ∨
      e.recoveryTimer = (s.workers.get? w).bind WorkerEntry.recoveryTimer)
  timers : s'.timers =
    (s.clearTimeout ((s.workers.get? w).bind WorkerEntry.recoveryTimer)).timers ++
      firstTimer o w s.nextTimer
  inFlight : s'.inFlight = s.inFlight
  runs : s'.runs = s.runs

theorem rearms_rearm {f : WorkerEntry → WorkerEntry} (he : s.workers.get? w = some entry)
    (hcrashed : (f entry).status = .crashed) (hattempt : (f entry).recoveryAttempt = 0)
    (htimer : (f entry).recoveryTimer = none ∨ (f entry).recoveryTimer = entry.recoveryTimer) :
    Rearms o s (s.rearm o w f) w := by
  have hentry : ((s.clearTimeout ((s.workers.get? w).bind WorkerEntry.recoveryTimer)).setWorker w
      f).workers.get? w = some (f entry) := by
    rw [get?_setWorker, if_pos rfl]
    exact congrArg (Option.map f) he
  unfold rearm scheduleRecoveryProbe
  rw [hentry]
  dsimp only
  rw [if_neg (by rw [hcrashed]; simp), hattempt]
  by_cases hlimit : o.recoveryAttempts ≤ 0
  · rw [if_pos hlimit]
    refine ⟨⟨_, hentry, hcrashed, ?_, ?_, ?_⟩, ?_, inFlight_setWorker _ w f, runs_setWorker _ w f⟩
    · rw [hattempt, if_pos hlimit]
    · omega
    · rw [he]
      exact fun _ => htimer
    · rw [timers_setWorker, firstTimer, if_pos hlimit, List.append_nil]
  · rw [if_neg hlimit]
    constructor
    · refine ⟨{ f entry with
          recoveryAttempt := (f entry).recoveryAttempt + 1
          recoveryTimer := some s.nextTimer }, ?_, hcrashed, ?_, ?_, ?_⟩
      · unfold setTimeout
        dsimp only
        rw [get?_setWorker, if_pos rfl, hentry, nextTimer_setWorker]
        rfl
      · rw [hattempt, if_neg hlimit]
        rfl
      · exact fun _ => rfl
      · exact fun hle => absurd hle hlimit
    · simp only [setTimeout, timers_setWorker, nextTimer_setWorker, firstTimer, if_neg hlimit]
      simp [clearTimeout]
    · simp only [setTimeout, inFlight_setWorker]
      rfl
    · simp only [setTimeout, runs_setWorker]
      rfl

theorem Rearms.pendingDelays (h : Rearms o s s' w) : s'.pendingDelays w =
    (s.clearTimeout ((s.workers.get? w).bind WorkerEntry.recoveryTimer)).pendingDelays w ++
      if o.recoveryAttempts ≤ 0 then [] else [o.recoveryMs] := by
  rw [WorkerPool.pendingDelays, h.timers, List.filter_append, List.map_append, firstTimer,
    WorkerPool.pendingDelays]
  by_cases hlimit : o.recoveryAttempts ≤ 0
  · simp [hlimit]
  · simp [hlimit]

/-- Rearming once more exchanges the timer for one with the same delay. -/
theorem Rearms.again {t t' : WorkerPool} (h : Rearms o s s' w) (hnumbered : s.Numbered)
    (htimers : t.timers = s'.timers)
    (hrecorded : (t.workers.get? w).bind WorkerEntry.recoveryTimer =
      (s'.workers.get? w).bind WorkerEntry.recoveryTimer)
    (h' : Rearms o t t' w) : t'.pendingDelays w = s'.pendingDelays w := by
  obtain ⟨e, he, -, -, hsome, hnone⟩ := h.entry
  have hcleared : (t.clearTimeout ((t.workers.get? w).bind WorkerEntry.recoveryTimer)).timers =
      (s.clearTimeout ((s.workers.get? w).bind WorkerEntry.recoveryTimer)).timers := by
    rw [hrecorded, he, Option.bind_some]
    unfold clearTimeout
    dsimp only
    rw [htimers, h.timers, List.filter_append]
    by_cases hlimit : o.recoveryAttempts ≤ 0
    · rw [firstTimer, if_pos hlimit, List.filter_nil, List.append_nil]
      apply List.filter_eq_self.mpr
      intro timer htimer
      obtain hnone | hsame := hnone hlimit
      · simp [hnone]
      · rw [hsame]
        exact (List.mem_filter.mp htimer).2
    · rw [firstTimer, if_neg hlimit, hsome (by omega)]
      have hold : ∀ timer ∈ (s.clearTimeout
          ((s.workers.get? w).bind WorkerEntry.recoveryTimer)).timers,
          decide (some timer.id ≠ some s.nextTimer) = true := by
        intro timer htimer
        have hlt := hnumbered.timer timer (List.mem_of_mem_filter htimer)
        rw [decide_eq_true_eq, ne_eq, Option.some_inj]
        exact hlt.ne
      rw [List.filter_eq_self.mpr hold]
      simp [clearTimeout]
  rw [h'.pendingDelays, h.pendingDelays]
  unfold WorkerPool.pendingDelays
  rw [hcleared]

section Failing

variable {err : WorkerPoolError}

theorem timers_cleanup (s : WorkerPool) (r : ℕ) : (s.cleanup r).timers = s.timers := by
  unfold cleanup
  split
  · rfl
  · split
    · rfl
    · rw [timers_setWorker]
      rfl

/-- A failure that is not the transport's starts and clears no timer. -/
theorem timers_abandon (s : WorkerPool) (r : ℕ) (v : ℤ)
    (herr : isTransportFailure err.code = false) : (s.abandon o r v err).timers = s.timers := by
  unfold abandon
  dsimp only
  rw [herr, if_neg Bool.false_ne_true]
  exact timers_cleanup (s.markDone r) r

theorem timers_finalizeError (s : WorkerPool) (r : ℕ)
    (herr : isTransportFailure err.code = false) :
    (s.finalizeError o r err).timers = s.timers := by
  unfold finalizeError
  split
  · rfl
  · split
    · rfl
    · exact timers_abandon s r _ herr

theorem timers_failInFlight (s : WorkerPool) (r : ℕ)
    (herr : isTransportFailure err.code = false) :
    (s.failInFlight o r err).timers = s.timers := by
  unfold failInFlight
  split
  · rfl
  · split
    · split
      · rfl
      · exact timers_abandon s r _ herr
    · exact timers_finalizeError (s.destroy r none) r herr

theorem timers_failAll (w : ℤ) (l : List (JsString × InFlight)) (s : WorkerPool) :
    (failAll o w l s).timers = s.timers := by
  induction l generalizing s with
  | nil => rfl
  | cons x l ih => rw [failAll_cons, ih, timers_failInFlight s _ rfl]

/-- What becomes of the runs is up to the runs and to what is failed. -/
theorem runs_failAll (w : ℤ) (l : List (JsString × InFlight)) (s : WorkerPool) :
    (failAll o w l s).runs = l.foldl (fun runs x =>
      runs.modify x.2.run fun run => run.failInFlight (crashError w x.1)) s.runs := by
  induction l generalizing s with
  | nil => rfl
  | cons x l ih => rw [failAll_cons, ih, runs_failInFlight, List.foldl_cons]

end Failing

/-- A crash notice rearms the worker once its requests are failed, over the timers there were. -/
theorem Numbered.crash_rearms (h : s.Numbered) (he : s.workers.get? w = some entry)
    (requestId : JsString) : ∃ t : WorkerPool, t.Numbered ∧ t.timers = s.timers ∧
      (t.workers.get? w).bind WorkerEntry.recoveryTimer = entry.recoveryTimer ∧
      Rearms o t (s.markWorkerCrashed o w requestId) w := by
  have hset : (s.setWorker w fun e => { e with status := .crashed }).workers.get? w =
      some { entry with status := .crashed } := by
    rw [get?_setWorker, if_pos rfl, he]
    rfl
  have hcrashed := h.recovers_crashed he (recovery_of_get? he)
  have hrests := rests_failAll (o := o) (s.affected w requestId)
    (s.setWorker w fun e => { e with status := .crashed }) w
  have hrecovery := congrFun hrests.recovery w
  rw [recovery_of_get? hset] at hrecovery
  obtain ⟨e, hget, hview⟩ := exists_of_recovery hrecovery
  rw [Recovery.mk.injEq] at hview
  obtain ⟨hstatus, hrecorded, -⟩ := hview
  refine ⟨failAll o w (s.affected w requestId)
    (s.setWorker w fun e => { e with status := .crashed }), hrests.numbered hcrashed.numbered, ?_,
    ?_, ?_⟩
  · rw [timers_failAll, timers_setWorker]
  · rw [failAll, hget, Option.bind_some, ← hrecorded]
  · rw [markWorkerCrashed_eq he]
    exact rearms_rearm hget (by simpa using hstatus.symm) rfl (.inr rfl)

/-- A restart notice rearms a worker that is not busy. -/
theorem restart_rearms (now : ℤ) (he : s.workers.get? w = some entry)
    (hidle : entry.status ≠ .busy) :
    Rearms o s (s.handleSupervisorMessage o now (.workerRestarted w)) w := by
  have hgo : s.handleSupervisorMessage o now (.workerRestarted w) = s.rearm o w fun e =>
      { e with
        recoveryTimer := none
        recoveryAttempt := 0
        startedAt := now
        status := .crashed } := by
    simp only [handleSupervisorMessage, revive, rearm, he, if_neg hidle, Option.bind_some]
  rw [hgo]
  exact rearms_rearm he rfl rfl (.inl rfl)

theorem restart_busy (now : ℤ) (he : s.workers.get? w = some entry)
    (hbusy : entry.status = .busy) :
    s.handleSupervisorMessage o now (.workerRestarted w) = s := by
  simp only [handleSupervisorMessage, he, if_pos hbusy]

theorem Rearms.sameAftermath {t t' : WorkerPool} (h : Rearms o s s' w) (h' : Rearms o t t' w)
    (hinFlight : t'.inFlight = s'.inFlight) (hruns : t'.runs = s'.runs)
    (hpending : t'.pendingDelays w = s'.pendingDelays w) : SameAftermath s' t' w := by
  obtain ⟨e, he, hcrashed, hattempt, -⟩ := h.entry
  obtain ⟨e', he', hcrashed', hattempt', -⟩ := h'.entry
  refine ⟨?_, ?_, hinFlight, hruns, hpending⟩
  · rw [status_of_get? he, status_of_get? he', hcrashed, hcrashed']
  · rw [he, he', Option.map_some, Option.map_some, hattempt, hattempt']

theorem runs_crash (he : s.workers.get? w = some entry) (requestId : JsString) :
    (s.markWorkerCrashed o w requestId).runs = (s.affected w requestId).foldl (fun runs x =>
      runs.modify x.2.run fun run => run.failInFlight (crashError w x.1)) s.runs := by
  rw [markWorkerCrashed_eq he]
  dsimp only
  rw [runs_tail, runs_failAll, runs_setWorker]

/-- What a notice without a request concerns is its worker's. -/
theorem own_of_affected (s : WorkerPool) (w : ℤ) : ∀ x ∈ s.affected w [], x.2.workerId = w := by
  intro x hx
  simp only [affected, List.isEmpty_nil, List.mem_filter, decide_eq_true_eq] at hx
  exact hx.2

/-- The requests fail as well behind a restart notice as before it. -/
theorem Entered.crash_same (h : s.Entered) (h' : s'.Entered) {entry' : WorkerEntry}
    (he : s.workers.get? w = some entry) (he' : s'.workers.get? w = some entry')
    (hinFlight : s'.inFlight = s.inFlight) (hruns : s'.runs = s.runs) :
    (s'.markWorkerCrashed o w []).inFlight = (s.markWorkerCrashed o w []).inFlight ∧
      (s'.markWorkerCrashed o w []).runs = (s.markWorkerCrashed o w []).runs := by
  have haffected : s'.affected w [] = s.affected w [] := by
    simp only [affected, List.isEmpty_nil, hinFlight]
  obtain ⟨-, hleft, -⟩ := h.crash_spec (o := o) he (own_of_affected s w)
  obtain ⟨-, hleft', -⟩ := h'.crash_spec (o := o) he' (own_of_affected s' w)
  constructor
  · rw [hleft, hleft', haffected, hinFlight]
  · rw [runs_crash he, runs_crash he', haffected, hruns]

/-- In every state of the pool the two orders of a worker's crash and restart notices come to the
same. -/
theorem notices_commute {now : ℤ} {as : List PoolAction}
    (hrun : Machine.exec (poolStep o) (.new o now) as = some s) (w now₁ now₂ now₃ now₄ : ℤ) :
    SameAftermath
      ((s.handleSupervisorMessage o now₁ (.workerCrashed w [])).handleSupervisorMessage o now₂
        (.workerRestarted w))
      ((s.handleSupervisorMessage o now₃ (.workerRestarted w)).handleSupervisorMessage o now₄
        (.workerCrashed w [])) w := by
  have hnumbered : s.Numbered := ((inOrder_new o now).numbered.carried hrun).numbered
  have hentered : s.Entered := entered_of_exec hrun
  cases he : s.workers.get? w with
  | none =>
      have hcrash : ∀ t, s.handleSupervisorMessage o t (.workerCrashed w []) = s := by
        intro t
        simp only [handleSupervisorMessage, markWorkerCrashed, he]
      have hrestart : ∀ t, s.handleSupervisorMessage o t (.workerRestarted w) = s := by
        intro t
        simp only [handleSupervisorMessage, he]
      rw [hcrash, hrestart, hrestart, hcrash]
      exact ⟨rfl, rfl, rfl, rfl, rfl⟩
  | some entry =>
      obtain ⟨t, htnumbered, httimers, htrecorded, hcrash⟩ := hnumbered.crash_rearms (o := o) he []
      obtain ⟨c, hc, hcrashed, -⟩ := hcrash.entry
      have hrestart := restart_rearms (o := o) now₂ hc (by rw [hcrashed]; simp)
      have hagain := hcrash.again htnumbered rfl rfl hrestart
      by_cases hbusy : entry.status = .busy
      · rw [restart_busy now₃ he hbusy]
        exact hrestart.sameAftermath hcrash hrestart.inFlight.symm hrestart.runs.symm hagain.symm
      · have hfirst := restart_rearms (o := o) now₃ he hbusy
        obtain ⟨e', he', -⟩ := hfirst.entry
        obtain ⟨t', -, httimers', htrecorded', hcrash'⟩ :=
          (hnumbered.restarts_workerRestarted (o := o) w now₃).numbered.crash_rearms (o := o) he' []
        have hagain' := hfirst.again hnumbered httimers' (by rw [htrecorded', he']; rfl) hcrash'
        obtain ⟨hinFlight, hruns⟩ := hentered.crash_same (o := o)
          (hentered.moves (moves_workerRestarted s w now₃)) he he' hfirst.inFlight hfirst.runs
        refine hrestart.sameAftermath hcrash' (hinFlight.trans hrestart.inFlight.symm)
          (hruns.trans hrestart.runs.symm) ?_
        have hcleared : ∀ u : WorkerPool, u.timers = s.timers →
            (u.workers.get? w).bind WorkerEntry.recoveryTimer = entry.recoveryTimer →
            (u.clearTimeout ((u.workers.get? w).bind WorkerEntry.recoveryTimer)).pendingDelays w =
              (s.clearTimeout entry.recoveryTimer).pendingDelays w := by
          intro u htimers hrecorded
          unfold pendingDelays clearTimeout
          rw [hrecorded, htimers]
        have hpending := hfirst.pendingDelays
        rw [hcleared s rfl (by rw [he]; rfl)] at hpending
        have hpending' := hcrash.pendingDelays
        rw [hcleared t httimers htrecorded] at hpending'
        calc
          _ = (s.handleSupervisorMessage o now₃ (.workerRestarted w)).pendingDelays w := hagain'
          _ = (s.markWorkerCrashed o w []).pendingDelays w := hpending.trans hpending'.symm
          _ = _ := hagain.symm

/-- Worker 0 is busy when the two notices come. -/
theorem notices_commute_bothInFlight :
    ∃ s, Machine.exec (poolStep twoWorkers) (.new twoWorkers 0) bothInFlight = some s ∧
      SameAftermath
        ((s.handleSupervisorMessage twoWorkers 120 (.workerCrashed 0 [])).handleSupervisorMessage
          twoWorkers 130 (.workerRestarted 0))
        ((s.handleSupervisorMessage twoWorkers 120 (.workerRestarted 0)).handleSupervisorMessage
          twoWorkers 130 (.workerCrashed 0 [])) 0 := by
  have hsome : (Machine.exec (poolStep twoWorkers) (.new twoWorkers 0) bothInFlight).isSome := by
    decide
  obtain ⟨s, hs⟩ := Option.isSome_iff_exists.mp hsome
  exact ⟨s, hs, notices_commute hs 0 120 130 120 130⟩

end WorkerPool

end ServeInfer.ApiServer
