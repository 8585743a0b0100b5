import ServeInfer.ApiServer.PoolLoop
import Mathlib.Logic.Function.Basic
import Mathlib.Logic.Relation

/-!
# What one step of the worker pool can do

As far as statuses, entries in flight and the ends of runs go, every step is a
chain of four moves: nothing happens, a worker that is not busy changes its
status, a run is opened on a ready worker, and a run ends.
-/

namespace ServeInfer.ApiServer

/-- What the moves look at in a run. -/
structure Core where
  workerId : ℤ
  requestId : JsString
  done : Bool
  cleanupDone : Bool
  deriving DecidableEq

def Run.core (run : Run) : Core := ⟨run.workerId, run.requestId, run.done, run.cleanupDone⟩

namespace WorkerPool

variable {o : Options} {s s' s'' : WorkerPool} {w : ℤ} {r : ℕ}

def status (s : WorkerPool) (w : ℤ) : Option WorkerStatus :=
  (s.workers.get? w).map WorkerEntry.status

theorem status_of_get? {e : WorkerEntry} (h : s.workers.get? w = some e) :
    s.status w = some e.status := by
  rw [status, h, Option.map_some]

theorem status_of_none (h : s.workers.get? w = none) : s.status w = none := by
  rw [status, h, Option.map_none]

def cores (s : WorkerPool) : List Core := s.runs.map Run.core

theorem get?_setWorker (s : WorkerPool) (w w' : ℤ) (f : WorkerEntry → WorkerEntry) :
    (s.setWorker w f).workers.get? w' =
      if w = w' then (s.workers.get? w).map f else s.workers.get? w' := by
  cases h : s.workers.get? w with
  | none =>
      simp only [setWorker, h]
      split
      · rename_i heq
        rw [← heq, h]
        rfl
      · rfl
  | some e =>
      simp only [setWorker, h]
      rw [OrderedMap.get?_set]
      rfl

@[simp] theorem runs_setWorker (s : WorkerPool) (w : ℤ) (f : WorkerEntry → WorkerEntry) :
    (s.setWorker w f).runs = s.runs := by
  unfold setWorker
  split <;> rfl

@[simp] theorem inFlight_setWorker (s : WorkerPool) (w : ℤ) (f : WorkerEntry → WorkerEntry) :
    (s.setWorker w f).inFlight = s.inFlight := by
  unfold setWorker
  split <;> rfl

/-- Giving a worker a status. -/
theorem status_setWorker {st : WorkerStatus} {f : WorkerEntry → WorkerEntry}
    (h : (s.status w).isSome) (hf : ∀ e, s.workers.get? w = some e → (f e).status = st) :
    (s.setWorker w f).status = Function.update s.status w (some st) := by
  funext w'
  by_cases hw : w' = w
  · subst hw
    obtain ⟨e, he⟩ := Option.isSome_iff_exists.mp (by simpa [status] using h)
    rw [Function.update_self, status, get?_setWorker, if_pos rfl, he, Option.map_some,
      Option.map_some, hf e he]
  · rw [Function.update_of_ne hw, status, get?_setWorker, if_neg (Ne.symm hw), status]

theorem status_setWorker_same {f : WorkerEntry → WorkerEntry}
    (hf : ∀ e, s.workers.get? w = some e → (f e).status = e.status) :
    (s.setWorker w f).status = s.status := by
  funext w'
  rw [status, get?_setWorker, status]
  split
  · rename_i heq
    subst heq
    cases he : s.workers.get? w with
    | none => rfl
    | some e => rw [Option.map_some, Option.map_some, Option.map_some, hf e he]
  · rfl

/-- Nothing that the moves look at has changed. -/
structure Quiet (s s' : WorkerPool) : Prop where
  status : s'.status = s.status
  inFlight : s'.inFlight = s.inFlight
  cores : s'.cores = s.cores

theorem Quiet.refl (s : WorkerPool) : s.Quiet s := ⟨rfl, rfl, rfl⟩

theorem Quiet.trans (h : s.Quiet s') (h' : s'.Quiet s'') : s.Quiet s'' :=
  ⟨h'.status.trans h.status, h'.inFlight.trans h.inFlight, h'.cores.trans h.cores⟩

theorem quiet_setRun (s : WorkerPool) (r : ℕ) {f : Run → Run}
    (hf : ∀ run, s.runs[r]? = some run → (f run).core = run.core) : s.Quiet (s.setRun r f) := by
  refine ⟨rfl, rfl, ?_⟩
  apply List.ext_getElem?
  intro k
  simp only [cores, setRun, List.getElem?_map, List.getElem?_modify]
  cases hk : s.runs[k]? with
  | none => rfl
  | some run =>
      by_cases hr : r = k
      · subst hr
        simp [hf run hk]
      · simp [hr]

theorem quiet_setWorker (s : WorkerPool) (w : ℤ) {f : WorkerEntry → WorkerEntry}
    (hf : ∀ e, s.workers.get? w = some e → (f e).status = e.status) :
    s.Quiet (s.setWorker w f) :=
  ⟨status_setWorker_same hf, inFlight_setWorker s w f, by rw [cores, runs_setWorker, cores]⟩

theorem quiet_clearTimeout (s : WorkerPool) (timer : Option ℕ) : s.Quiet (s.clearTimeout timer) :=
  ⟨rfl, rfl, rfl⟩

theorem quiet_setTimeout (s : WorkerPool) (w delay : ℤ) : s.Quiet (s.setTimeout w delay) :=
  ⟨rfl, rfl, rfl⟩

theorem quiet_scheduleRecoveryProbe (s : WorkerPool) (w : ℤ) :
    s.Quiet (s.scheduleRecoveryProbe o w) := by
  unfold scheduleRecoveryProbe
  split
  · exact .refl s
  · rename_i e he
    split_ifs
    · exact .refl s
    · exact .refl s
    · refine Quiet.trans (quiet_setWorker s w ?_) (quiet_setTimeout _ _ _)
      exact fun _ _ => rfl

/-- A worker that was not busy has a status that is not busy either. -/
structure Restatus (s s' : WorkerPool) (w : ℤ) (st : WorkerStatus) : Prop where
  present : (s.status w).isSome
  idle : s.status w ≠ some .busy
  status : s'.status = Function.update s.status w (some st)
  inFlight : s'.inFlight = s.inFlight
  cores : s'.cores = s.cores
  ne : st ≠ .busy

/-- A run has been opened on a worker that was not busy, under an id of its own. -/
structure Opened (s s' : WorkerPool) (w : ℤ) (request : InferRequest) : Prop where
  ready : s.status w = some .ready
  fresh : s.inFlight.get? request.requestId = none
  status : s'.status = Function.update s.status w (some .busy)
  inFlight : s'.inFlight = s.inFlight.set request.requestId ⟨w, s.runs.length⟩
  cores : s'.cores = s.cores ++ [⟨w, request.requestId, false, false⟩]

/-- A run that was not done is, its entry is gone, and its worker is not busy. -/
structure Ended (s s' : WorkerPool) (r : ℕ) (c : Core) (st : WorkerStatus) : Prop where
  found : s.cores[r]? = some c
  undone : c.done = false
  status : s'.status = Function.update s.status c.workerId (some st)
  inFlight : s'.inFlight = s.inFlight.delete c.requestId
  cores : ∀ k d, s'.cores[k]? = some d → k ≠ r ∧ s.cores[k]? = some d ∨ k = r ∧ d.done = true
  length : s'.cores.length = s.cores.length
  ne : st ≠ .busy

/-- One move. -/
inductive Move (s s' : WorkerPool) : Prop
  | quiet (h : s.Quiet s')
  | restatus (w : ℤ) (st : WorkerStatus) (h : s.Restatus s' w st)
  | opened (w : ℤ) (request : InferRequest) (h : s.Opened s' w request)
  | ended (r : ℕ) (c : Core) (st : WorkerStatus) (h : s.Ended s' r c st)

variable {c : Core} {st : WorkerStatus}

theorem Ended.quiet (h : s.Ended s' r c st) (hq : s'.Quiet s'') : s.Ended s'' r c st :=
  { h with
    status := hq.status.trans h.status
    inFlight := hq.inFlight.trans h.inFlight
    cores := hq.cores ▸ h.cores
    length := hq.cores ▸ h.length }

theorem Quiet.ended (hq : s.Quiet s') (h : s'.Ended s'' r c st) : s.Ended s'' r c st :=
  { h with
    found := hq.cores ▸ h.found
    status := hq.status ▸ h.status
    inFlight := hq.inFlight ▸ h.inFlight
    cores := hq.cores ▸ h.cores
    length := hq.cores ▸ h.length }

theorem getElem?_cores (s : WorkerPool) (r : ℕ) : s.cores[r]? = (s.runs[r]?).map Run.core := by
  rw [cores, List.getElem?_map]

theorem getElem?_setRun (s : WorkerPool) (r k : ℕ) (f : Run → Run) :
    (s.setRun r f).runs[k]? = if r = k then (s.runs[k]?).map f else s.runs[k]? := by
  rw [setRun, List.getElem?_modify]
  split
  · rfl
  · simp

/-- A run that `cleanup` has to clean up after. -/
structure Open (s : WorkerPool) (r : ℕ) (c : Core) : Prop where
  found : s.cores[r]? = some c
  undone : c.done = false
  dirty : c.cleanupDone = false
  present : (s.status c.workerId).isSome

theorem Open.quiet (h : s.Open r c) (hq : s.Quiet s') : s'.Open r c :=
  ⟨hq.cores ▸ h.found, h.undone, h.dirty, hq.status ▸ h.present⟩

theorem Open.exists_run (h : s.Open r c) : ∃ run, s.runs[r]? = some run ∧ run.core = c := by
  have hfound := h.found
  rw [getElem?_cores] at hfound
  exact Option.map_eq_some_iff.mp hfound

/-- The status an ended run's worker gets from `cleanup`. -/
def released (st : Option WorkerStatus) : WorkerStatus :=
  if st = some .crashed then .crashed else .ready

/-- `done = true` and `cleanup`. -/
theorem Open.cleanup (h : s.Open r c) :
    s.Ended ((s.markDone r).cleanup r) r c (released (s.status c.workerId)) := by
  obtain ⟨run, hr, rfl⟩ := h.exists_run
  have hr' : (s.markDone r).runs[r]? = some { run with done := true } := by
    rw [markDone, getElem?_setRun, if_pos rfl, hr, Option.map_some]
  have hdirty : run.cleanupDone = false := h.dirty
  have hcleanup : (s.markDone r).cleanup r =
      (((s.markDone r).markClean r).deleteInFlight run.requestId).setWorker run.workerId fun e =>
        if e.status = .crashed then e else { e with status := .ready } := by
    simp only [WorkerPool.cleanup, hr', hdirty, Bool.and_false, Bool.false_eq_true, if_false]
  rw [hcleanup]
  refine ⟨h.found, h.undone, ?_, ?_, ?_, ?_, ?_⟩
  · refine status_setWorker h.present fun e he => ?_
    have hst : s.status run.workerId = some e.status := status_of_get? he
    rw [released, Run.core, hst]
    by_cases hcrash : e.status = .crashed <;> simp [hcrash]
  · rw [inFlight_setWorker]
    rfl
  · intro k d hd
    rw [getElem?_cores, runs_setWorker] at hd
    have hruns : (((s.markDone r).markClean r).deleteInFlight run.requestId).runs[k]? =
        ((s.markDone r).markClean r).runs[k]? := rfl
    rw [hruns, markClean, getElem?_setRun, markDone, getElem?_setRun] at hd
    by_cases hk : r = k
    · subst hk
      rw [if_pos rfl, if_pos rfl, hr] at hd
      obtain rfl := Option.some.inj hd
      exact .inr ⟨rfl, rfl⟩
    · rw [if_neg hk, if_neg hk] at hd
      exact .inl ⟨Ne.symm hk, by rw [getElem?_cores]; exact hd⟩
  · rw [cores, runs_setWorker, List.length_map, cores, List.length_map]
    show ((s.runs.modify r _).modify r _).length = s.runs.length
    rw [List.length_modify, List.length_modify]
  · unfold released
    split <;> simp

/-- `_quarantineAfterTransportFailure` of a worker that is not busy. -/
theorem Ended.quarantine (h : s.Ended s' r c st) :
    s.Ended (s'.quarantineAfterTransportFailure o c.workerId) r c .crashed := by
  have hw : s'.status c.workerId = some st := by rw [h.status, Function.update_self]
  unfold quarantineAfterTransportFailure
  split
  · rename_i hnone
    rw [status_of_none hnone] at hw
    cases hw
  · rename_i e he
    have hst : e.status = st := Option.some.inj ((status_of_get? he).symm.trans hw)
    split
    · rename_i hcrash
      rw [← hst, hcrash] at h
      exact h
    · have hset : (s'.setWorker c.workerId fun e => { e with status := .crashed }).status =
          Function.update s'.status c.workerId (some .crashed) :=
        status_setWorker (by rw [hw]; rfl) fun _ _ => rfl
      have hended : s.Ended (s'.setWorker c.workerId fun e => { e with status := .crashed }) r c
          .crashed :=
        { h with
          status := by rw [hset, h.status, Function.update_idem]
          inFlight := by rw [inFlight_setWorker, h.inFlight]
          cores := by
            rw [WorkerPool.cores, runs_setWorker]
            exact h.cores
          length := by
            rw [WorkerPool.cores, runs_setWorker]
            exact h.length
          ne := by simp }
      refine ((hended.quiet (quiet_clearTimeout _ _)).quiet (quiet_setWorker _ _ ?_)).quiet
        (quiet_scheduleRecoveryProbe _ _)
      exact fun _ _ => rfl

/-- The status an abandoned run's worker gets. -/
def abandoned (st : Option WorkerStatus) (code : ErrorCode) : WorkerStatus :=
  if isTransportFailure code then .crashed else released st

theorem Open.abandon (h : s.Open r c) (err : WorkerPoolError) :
    s.Ended (s.abandon o r c.workerId err) r c (abandoned (s.status c.workerId) err.code) := by
  have hended := h.cleanup
  unfold WorkerPool.abandon abandoned
  dsimp only
  split
  · exact hended.quarantine
  · exact hended

theorem quiet_settle (s : WorkerPool) (r : ℕ) (outcome : Outcome) :
    s.Quiet (s.settle r outcome) :=
  quiet_setRun s r fun _ _ => rfl

theorem quiet_destroy (s : WorkerPool) (r : ℕ) (err : Option WorkerPoolError) :
    s.Quiet (s.destroy r err) := by
  refine quiet_setRun s r fun run _ => ?_
  split <;> rfl

theorem Open.finalizeError (h : s.Open r c) (err : WorkerPoolError) :
    s.Ended (s.finalizeError o r err) r c (abandoned (s.status c.workerId) err.code) := by
  obtain ⟨run, hr, rfl⟩ := h.exists_run
  have hundone : run.done = false := h.undone
  unfold WorkerPool.finalizeError
  simp only [hr, hundone, Bool.false_eq_true, if_false]
  exact (h.abandon err).quiet (quiet_settle _ _ _)

theorem Open.failInFlight (h : s.Open r c) (err : WorkerPoolError) :
    s.Ended (s.failInFlight o r err) r c (abandoned (s.status c.workerId) err.code) := by
  obtain ⟨run, hr, rfl⟩ := h.exists_run
  have hundone : run.done = false := h.undone
  unfold WorkerPool.failInFlight
  simp only [hr]
  split
  · simp only [hundone, Bool.false_eq_true, if_false]
    exact ((h.abandon err).quiet (quiet_destroy _ _ _)).quiet (quiet_settle _ _ _)
  · have hquiet := quiet_destroy s r none
    have hended := (h.quiet hquiet).finalizeError (o := o) err
    rw [hquiet.status] at hended
    exact hquiet.ended hended

theorem Open.failRun (h : s.Open r c) (err : WorkerPoolError) :
    s.Ended (s.failRun o r err) r c (abandoned (s.status c.workerId) err.code) := by
  obtain ⟨run, hr, -⟩ := h.exists_run
  unfold WorkerPool.failRun
  simp only [hr]
  split
  · exact h.failInFlight err
  · exact h.finalizeError err

theorem quiet_recordDevice (s : WorkerPool) (w : ℤ) (msg : Json) :
    s.Quiet (s.recordDevice o w msg) :=
  quiet_setWorker s w fun _ _ => rfl

theorem Open.onResult (h : s.Open r c) (msg : Json) :
    s.Ended (s.onResult o r msg) r c (released (s.status c.workerId)) := by
  obtain ⟨run, hr, rfl⟩ := h.exists_run
  have hundone : run.done = false := h.undone
  unfold WorkerPool.onResult
  simp only [hr, hundone, Bool.false_eq_true, if_false]
  apply Ended.quiet _ (quiet_settle _ _ _)
  apply Ended.quiet _ (quiet_recordDevice _ _ _)
  exact h.cleanup.quiet (quiet_setRun _ r fun _ _ => rfl)

section Done

variable {run : Run} (hr : s.runs[r]? = some run) (hdone : run.done = true)

include hr hdone

theorem finalizeError_done (err : WorkerPoolError) : s.finalizeError o r err = s := by
  simp [finalizeError, hr, hdone]

/-- Failing a run that is done settles nothing. -/
theorem quiet_failInFlight (err : WorkerPoolError) : s.Quiet (s.failInFlight o r err) := by
  unfold failInFlight
  simp only [hr]
  split
  · exact .refl s
  · have hr' : ∃ run', (s.destroy r none).runs[r]? = some run' ∧ run'.done = true := by
      rw [destroy, getElem?_setRun, if_pos rfl, hr, Option.map_some]
      exact ⟨_, rfl, by split <;> exact hdone⟩
    obtain ⟨run', hr', hdone'⟩ := hr'
    rw [finalizeError_done hr' hdone']
    exact quiet_destroy s r none

theorem quiet_failRun (err : WorkerPoolError) : s.Quiet (s.failRun o r err) := by
  unfold failRun
  simp only [hr]
  split
  · exact quiet_failInFlight hr hdone err
  · rw [finalizeError_done hr hdone]
    exact .refl s

theorem onResult_done (msg : Json) : s.onResult o r msg = s := by
  simp [onResult, hr, hdone]

end Done

end WorkerPool

end ServeInfer.ApiServer
