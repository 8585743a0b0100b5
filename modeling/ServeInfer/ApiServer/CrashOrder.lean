import ServeInfer.ApiServer.Replies
import ServeInfer.ApiServer.RunView

/-!
# A worker's death, told twice

A dead worker shows on the socket of its request and in the supervisor's notice,
in either order. Whichever comes first decides the request's error; the worker
is crashed in the end both ways.
-/

namespace ServeInfer.ApiServer

/-- The run's socket fails: what a worker's death does to it. -/
def PoolAction.failsSocket (r : ℕ) : PoolAction → Prop
  | .error r' _ => r' = r
  | .close r' => r' = r
  | _ => False

namespace WorkerPool

variable {o : Options} {s s' : WorkerPool} {w : ℤ} {r : ℕ} {a : PoolAction}

/-- The request failed as one whose worker crashed, and `POST /infer` says when to come back. -/
def FailedAsCrash (s : WorkerPool) (r : ℕ) : Prop :=
  ∃ run err seconds, s.runs[r]? = some run ∧ run.outcome = some (.rejected err) ∧
    err.code = .workerCrashed ∧ err.retryAfterSeconds = some seconds ∧
    (Replies.post run.requestId false (.rejected err)).status = 503

/-- The two orders in which the notice and the failure of the socket come in. -/
def deathOrders (now : ℤ) (w : ℤ) (a : PoolAction) : List (List PoolAction) :=
  [[a, .supervisor now (.workerCrashed w [])], [.supervisor now (.workerCrashed w []), a]]

/-- Whichever order the two come in, the request fails as one whose worker crashed, and the
worker has the same status at the end. -/
def Confluent (o : Options) (s : WorkerPool) (w : ℤ) (r : ℕ) : Prop :=
  ∃ st, ∀ now a, a.failsSocket r → ∀ order ∈ deathOrders now w a,
    ∀ s', Machine.exec (poolStep o) s order = some s' → s'.FailedAsCrash r ∧ s'.status w = some st

@[simp] theorem threw_setWorker (s : WorkerPool) (w : ℤ) (f : WorkerEntry → WorkerEntry) :
    (s.setWorker w f).threw = s.threw := by
  unfold setWorker
  split <;> rfl

@[simp] theorem threw_setRun (s : WorkerPool) (r : ℕ) (f : Run → Run) :
    (s.setRun r f).threw = s.threw := rfl

@[simp] theorem threw_scheduleRecoveryProbe (s : WorkerPool) (w : ℤ) :
    (s.scheduleRecoveryProbe o w).threw = s.threw := by
  unfold scheduleRecoveryProbe
  split
  · rfl
  · split_ifs
    · rfl
    · rfl
    · exact threw_setWorker s w _

theorem threw_finish (s : WorkerPool) (r : ℕ) : ((s.markDone r).cleanup r).threw = s.threw := by
  unfold cleanup
  split
  · rfl
  · split
    · rfl
    · exact threw_setWorker _ _ _

@[simp] theorem threw_abandon (s : WorkerPool) (r : ℕ) (w : ℤ) (err : WorkerPoolError) :
    (s.abandon o r w err).threw = s.threw := by
  have hcleanup := threw_finish s r
  unfold abandon
  dsimp only
  split
  · rw [← hcleanup]
    unfold quarantineAfterTransportFailure
    split
    · rfl
    · split
      · rfl
      · rw [threw_scheduleRecoveryProbe, threw_setWorker]
        exact threw_setWorker _ _ _
  · exact hcleanup

theorem threw_finalizeError (s : WorkerPool) (r : ℕ) (err : WorkerPoolError) :
    (s.finalizeError o r err).threw = s.threw := by
  unfold finalizeError
  split
  · rfl
  · split
    · rfl
    · exact threw_abandon s r _ err

theorem threw_failRun (s : WorkerPool) (r : ℕ) (err : WorkerPoolError) :
    (s.failRun o r err).threw = s.threw := by
  unfold failRun
  split
  · rfl
  · split
    · unfold failInFlight
      split
      · rfl
      · split_ifs
        · rfl
        · exact threw_abandon s r _ err
        · exact threw_finalizeError _ r err
    · exact threw_finalizeError s r err

end WorkerPool

namespace Run

variable {run : Run}

/-- What a run that waits still is settled with when its socket fails. -/
theorem outcome_onError (h : run.Kept) (hdone : run.done = false) (message : JsString) :
    (run.onError message).outcome = some (.rejected (run.socketError message)) := by
  have hnone : run.outcome = none := by
    rw [← Option.not_isSome_iff_eq_none, ← h.settled, hdone]
    simp
  cases hstream : run.stream <;>
    simp [onError, failRun, failInFlight, finalizeError, finish, settle, destroy, hstream, hdone,
      hnone]

/-- The message with which a waiting run's socket can fail. -/
theorem exists_canError (h : run.Kept) (hdone : run.done = false) :
    ∃ message, run.canError message = true := by
  obtain ⟨hclosed, herror⟩ := h.socket hdone
  cases hdestroyed : run.destroyed with
  | false => exact ⟨[], by simp [canError, hclosed, hdestroyed]⟩
  | true =>
      obtain ⟨err, herr⟩ := Option.isSome_iff_exists.mp (herror hdestroyed)
      exact ⟨err.message, by simp [canError, hclosed, hdestroyed, herr]⟩

end Run

namespace WorkerPool

variable {o : Options} {s : WorkerPool} {w : ℤ} {r : ℕ}

/-- Where the socket's failure comes first the request fails with the socket's error. -/
theorem not_confluent_of_waiting {run : Run} (hlive : s.threw = false)
    (hr : s.runs[r]? = some run) (hkept : run.Kept) (hdone : run.done = false) :
    ¬ Confluent o s w r := by
  rintro ⟨st, hconfluent⟩
  obtain ⟨message, hcan⟩ := run.exists_canError hkept hdone
  have hfirst : poolStep o s (.error r message) = some ((s.errored r).onError o r message) := by
    simp [poolStep, hlive, guardRun, hr, hcan]
  have hlive' : ((s.errored r).onError o r message).threw = false := by
    have hthrew : ((s.errored r).onError o r message).threw = (s.errored r).threw := by
      unfold onError
      split
      · rfl
      · exact threw_failRun _ r _
    rw [hthrew]
    exact hlive
  have hsecond : poolStep o ((s.errored r).onError o r message) (.supervisor 0 (.workerCrashed w [])) =
      some (((s.errored r).onError o r message).markWorkerCrashed o w []) := by
    simp [poolStep, hlive', handleSupervisorMessage]
  have hrun : Machine.exec (poolStep o) s [.error r message, .supervisor 0 (.workerCrashed w [])] =
      some (((s.errored r).onError o r message).markWorkerCrashed o w []) := by
    simp [hfirst, hsecond]
  obtain ⟨⟨run', err, -, hr', hout', hcode, -, -⟩, -⟩ :=
    hconfluent 0 (.error r message) rfl _ (List.mem_cons_self) _ hrun
  have hr₁ : ((s.errored r).onError o r message).runs[r]? = some (run.onError message) := by
    rw [runs_onError, List.getElem?_modify_eq, hr]
    rfl
  obtain ⟨run₂, hr₂, hchain⟩ := happens_of_step hsecond r hr₁
  obtain rfl := Option.some.inj (hr₂.symm.trans hr')
  have hout := (Run.later_happens_all (by simp) hchain).outcome _
    (Run.outcome_onError hkept hdone message)
  rw [hout'] at hout
  obtain rfl := Outcome.rejected.inj (Option.some.inj hout)
  cases hcode

/-- A request in flight never fails in the same way whichever of the two comes first. -/
theorem crash_order_not_confluent {now : ℤ} {as : List PoolAction} {id : JsString}
    (hrun : Machine.exec (poolStep o) (WorkerPool.new o now) as = some s)
    (hplain : ∀ a ∈ as, a.plain) (hlive : s.threw = false)
    (hin : s.inFlight.get? id = some ⟨w, r⟩) : ¬ Confluent o s w r := by
  obtain ⟨⟨c, hc, -, -, hdone⟩, -⟩ := (booked_of_exec hrun hplain).entry hin
  rw [getElem?_cores] at hc
  obtain ⟨run, hr, rfl⟩ := Option.map_eq_some_iff.mp hc
  exact not_confluent_of_waiting hlive hr (runsKept_of_exec hrun r run hr) hdone

/-- A buffered request that has been sent to worker 0. -/
def requestSent : List PoolAction :=
  [.infer ⟨100, fun _ => true⟩ ⟨Json.units "a", Json.units "hi", [], false⟩, .connect 0]

theorem crash_order_not_confluent_requestSent :
    ∃ s, Machine.exec (poolStep twoWorkers) (.new twoWorkers 0) requestSent = some s ∧
      ¬ Confluent twoWorkers s 0 0 := by
  have hrun : (Machine.exec (poolStep twoWorkers) (.new twoWorkers 0) requestSent).map
      (fun s => (s.threw, s.inFlight.get? (Json.units "a"))) = some (false, some ⟨0, 0⟩) := by
    decide
  obtain ⟨s, hs, hstate⟩ := Option.map_eq_some_iff.mp hrun
  rw [Prod.mk.injEq] at hstate
  have hplain : ∀ a ∈ requestSent, a.plain := by simp [requestSent, PoolAction.plain]
  exact ⟨s, hs, crash_order_not_confluent hs hplain hstate.1 hstate.2⟩

/-- The worker's socket closes before the notice comes: `worker_closed`, and no 503. -/
theorem close_first_not_crash :
    ¬ ∀ (o : Options) (now : ℤ) (as : List PoolAction) (s : WorkerPool) (id : JsString) (w : ℤ)
      (r : ℕ), Machine.exec (poolStep o) (.new o now) as = some s → (∀ a ∈ as, a.plain) →
      s.threw = false → s.inFlight.get? id = some ⟨w, r⟩ → Confluent o s w r := by
  intro hall
  have hrun : (Machine.exec (poolStep twoWorkers) (.new twoWorkers 0) requestSent).map
      (fun s => (s.threw, s.inFlight.get? (Json.units "a"))) = some (false, some ⟨0, 0⟩) := by
    decide
  have hclosed : (Machine.exec (poolStep twoWorkers) (.new twoWorkers 0)
      (requestSent ++ [.close 0, .supervisor 0 (.workerCrashed 0 [])])).map
        (fun s => s.runs.map fun run => run.outcome) = some [some (.rejected {
          message := Json.units "worker closed before result"
          code := .workerClosed
          statusCode := 502
          workerId := some 0 })] := by
    decide
  obtain ⟨s, hs, hstate⟩ := Option.map_eq_some_iff.mp hrun
  rw [Prod.mk.injEq] at hstate
  have hplain : ∀ a ∈ requestSent, a.plain := by simp [requestSent, PoolAction.plain]
  obtain ⟨st, hconfluent⟩ := hall _ _ _ s _ 0 0 hs hplain hstate.1 hstate.2
  obtain ⟨s', hs', hruns⟩ := Option.map_eq_some_iff.mp hclosed
  rw [Machine.exec_append, hs, Option.bind_some] at hs'
  obtain ⟨⟨run, err, -, hr, hout, hcode, -, -⟩, -⟩ :=
    hconfluent 0 (.close 0) rfl _ List.mem_cons_self s' hs'
  have hout' := congrArg (fun l => l[0]?) hruns
  rw [List.getElem?_map, hr, Option.map_some, hout] at hout'
  have hsame := Outcome.rejected.inj (Option.some.inj (Option.some.inj hout'))
  rw [hsame] at hcode
  cases hcode

end WorkerPool

end ServeInfer.ApiServer
