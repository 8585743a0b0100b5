import ServeInfer.ApiServer.PoolSteps

/-!
# One run by itself

What the pool's handlers do to the run they are about depends on that run alone.
Each handler is restated as a function of a run, and shown to change that run in
this way and no other run.
-/

namespace ServeInfer.ApiServer

namespace Run

def settle (run : Run) (outcome : Outcome) : Run :=
  { run with outcome := run.outcome <|> some outcome }

def destroy (run : Run) (err : Option WorkerPoolError) : Run :=
  if run.destroyed then run else { run with destroyed := true, destroyError := err }

/-- `done = true` and `cleanup`. -/
def finish (run : Run) : Run :=
  { run with
    done := true
    cleanupDone := run.cleanupDone || run.stream
    connectTimer := run.connectTimer && run.stream && run.cleanupDone }

def finalizeError (run : Run) (err : WorkerPoolError) : Run :=
  if run.done then run else run.finish.settle (.rejected err)

def failInFlight (run : Run) (err : WorkerPoolError) : Run :=
  if run.stream then
    if run.done then run else (run.finish.destroy none).settle (.rejected err)
  else (run.destroy none).finalizeError err

def failRun (run : Run) (err : WorkerPoolError) : Run :=
  if run.stream then run.failInFlight err else run.finalizeError err

variable (o : Options)

def onResult (run : Run) (msg : Json) : Run :=
  if run.done then run
  else
    { run.finish with ended := run.ended || !run.destroyed }.settle
      (.resolved (WorkerPool.frameResult o msg))

def onToken (run : Run) (token : JsString) : Run := { run with tokens := run.tokens ++ [token] }

def badJson (run : Run) : WorkerPoolError where
  message := Json.units "invalid worker JSON frame"
  code := .workerBadJson
  statusCode := 502
  workerId := some run.workerId

def errorFrame (run : Run) (msg : Json) : WorkerPoolError where
  message := ((WorkerPool.truthy? o (msg.get? "error")).map (Json.toText o.numberText)).getD
    (Json.units "worker_error")
  code := .workerError
  statusCode := 502
  workerId := some run.workerId

/-- A frame that is not `null`, and whether the handler goes on to the next line. -/
def onFrame (run : Run) (msg : Json) : Run × Bool :=
  if run.stream && WorkerPool.isType msg "token" then
    (run.onToken (WorkerPool.coalesce o (msg.get? "token") ""), true)
  else if WorkerPool.isType msg "error" then (run.failRun (run.errorFrame o msg), false)
  else if WorkerPool.isType msg "result" then (run.onResult o msg, false)
  else (run, true)

def onLine (run : Run) (line : JsString) : Run × Bool :=
  if line.isEmpty then (run, true)
  else
    match Json.parse line with
    | none => (run.failRun run.badJson, false)
    | some .null => (run, false)
    | some msg => if WorkerPool.textless o run msg then (run, false) else run.onFrame o msg

def drain (run : Run) : List JsString → Run × JsString
  | [] => (run, [])
  | [rest] => (run, rest)
  | line :: lines =>
      match run.onLine o (Json.trim line) with
      | (run, true) => drain run lines
      | (run, false) => (run, List.intercalate [0x0A] lines)

def onData (run : Run) (chunk : List UInt8) : Run :=
  let drained := run.drain o ((run.buffer ++ Utf8.decode chunk).splitOn 0x0A)
  { drained.1 with buffer := drained.2 }

def socketError (run : Run) (message : JsString) : WorkerPoolError where
  message := if message.isEmpty then Json.units "worker socket error" else message
  code := .workerSocketError
  statusCode := 502
  workerId := some run.workerId

/-- The socket's error, and what the pool makes of it. -/
def onError (run : Run) (message : JsString) : Run :=
  { run with destroyed := true, destroyError := none }.failRun (run.socketError message)

def closeError (run : Run) : WorkerPoolError where
  message := Json.units "worker closed before result"
  code := .workerClosed
  statusCode := 502
  workerId := some run.workerId

/-- The socket's close, and what the pool makes of it. -/
def onClose (run : Run) : Run :=
  if run.done then { run with destroyed := true, closed := true }
  else { run with destroyed := true, closed := true }.failRun run.closeError

def connect (run : Run) : Run := { run with connectTimer := false, written := true }

def connectTimeoutError (run : Run) : WorkerPoolError where
  message := Json.units ("worker " ++ toString run.workerId ++ " connect timeout")
  code := .workerConnectTimeout
  statusCode := 503
  workerId := some run.workerId

def timeOut (run : Run) : Run :=
  { run with connectTimer := false }.destroy (some run.connectTimeoutError)

def cancelled : WorkerPoolError where
  message := Json.units "stream_cancelled"
  code := .streamCancelled
  statusCode := 499

end Run

theorem modify_congr_of_get {α : Type*} {l : List α} {i : ℕ} {a : α} {f g : α → α}
    (h : l[i]? = some a) (hfg : f a = g a) : l.modify i f = l.modify i g := by
  apply List.ext_getElem?
  intro k
  rw [List.getElem?_modify, List.getElem?_modify]
  split
  · rename_i hk
    subst hk
    simp [h, hfg]
  · rfl

theorem modify_eq_of_fixed {α : Type*} {l : List α} {i : ℕ} {a : α} {f : α → α}
    (h : l[i]? = some a) (hf : f a = a) : l.modify i f = l := by
  rw [modify_congr_of_get (g := id) h hf, List.modify_id]

namespace WorkerPool

variable {o : Options} {s : WorkerPool} {w : ℤ} {r : ℕ} {run : Run}

@[simp] theorem runs_setRun (s : WorkerPool) (r : ℕ) (f : Run → Run) :
    (s.setRun r f).runs = s.runs.modify r f := rfl

@[simp] theorem runs_clearTimeout (s : WorkerPool) (timer : Option ℕ) :
    (s.clearTimeout timer).runs = s.runs := rfl

@[simp] theorem runs_setTimeout (s : WorkerPool) (w delay : ℤ) :
    (s.setTimeout w delay).runs = s.runs := rfl

@[simp] theorem runs_deleteInFlight (s : WorkerPool) (id : JsString) :
    (s.deleteInFlight id).runs = s.runs := rfl

@[simp] theorem runs_scheduleRecoveryProbe (s : WorkerPool) (w : ℤ) :
    (s.scheduleRecoveryProbe o w).runs = s.runs := by
  unfold scheduleRecoveryProbe
  split
  · rfl
  · split_ifs
    · rfl
    · rfl
    · rw [runs_setTimeout, runs_setWorker]

@[simp] theorem runs_quarantine (s : WorkerPool) (w : ℤ) :
    (s.quarantineAfterTransportFailure o w).runs = s.runs := by
  unfold quarantineAfterTransportFailure
  split
  · rfl
  · split
    · rfl
    · rw [runs_scheduleRecoveryProbe, runs_setWorker, runs_clearTimeout, runs_setWorker]

@[simp] theorem runs_recordDevice (s : WorkerPool) (w : ℤ) (msg : Json) :
    (s.recordDevice o w msg).runs = s.runs :=
  runs_setWorker s w _

theorem runs_settle (s : WorkerPool) (r : ℕ) (outcome : Outcome) :
    (s.settle r outcome).runs = s.runs.modify r fun run => run.settle outcome := rfl

theorem runs_destroy (s : WorkerPool) (r : ℕ) (err : Option WorkerPoolError) :
    (s.destroy r err).runs = s.runs.modify r fun run => run.destroy err := rfl

theorem runs_finish (s : WorkerPool) (r : ℕ) :
    ((s.markDone r).cleanup r).runs = s.runs.modify r Run.finish := by
  cases hr : s.runs[r]? with
  | none =>
      have hr' : (s.markDone r).runs[r]? = none := by
        rw [markDone, getElem?_setRun, if_pos rfl, hr, Option.map_none]
      have hlen := List.getElem?_eq_none_iff.mp hr
      simp only [cleanup, hr']
      rw [markDone, runs_setRun, List.modify_eq_self hlen, List.modify_eq_self hlen]
  | some run =>
      have hr' : (s.markDone r).runs[r]? = some { run with done := true } := by
        rw [markDone, getElem?_setRun, if_pos rfl, hr, Option.map_some]
      simp only [cleanup, hr']
      split
      · rename_i hclean
        rw [Bool.and_eq_true] at hclean
        rw [markDone, runs_setRun]
        refine modify_congr_of_get hr ?_
        simp [Run.finish, hclean]
      · rename_i hdirty
        rw [runs_setWorker, runs_deleteInFlight, markClean, runs_setRun, markDone, runs_setRun,
          List.modify_modify_eq]
        refine modify_congr_of_get hr ?_
        rw [Bool.not_eq_true, Bool.and_eq_false_iff] at hdirty
        obtain hs | hc := hdirty
        · simp [Run.finish, hs]
        · simp [Run.finish, hc]

theorem runs_abandon (s : WorkerPool) (r : ℕ) (w : ℤ) (err : WorkerPoolError) :
    (s.abandon o r w err).runs = s.runs.modify r Run.finish := by
  rw [← runs_finish]
  unfold abandon
  dsimp only
  split
  · rw [runs_quarantine]
  · rfl

/-- Without the run nothing happens to it. -/
theorem modify_of_none {f : Run → Run} (hr : s.runs[r]? = none) : s.runs.modify r f = s.runs :=
  List.modify_eq_self (List.getElem?_eq_none_iff.mp hr)

theorem runs_finalizeError (s : WorkerPool) (r : ℕ) (err : WorkerPoolError) :
    (s.finalizeError o r err).runs = s.runs.modify r fun run => run.finalizeError err := by
  cases hr : s.runs[r]? with
  | none => simp only [finalizeError, hr, modify_of_none hr]
  | some run =>
      simp only [finalizeError, hr]
      split
      · rename_i hdone
        exact (modify_eq_of_fixed hr (by simp [Run.finalizeError, hdone])).symm
      · rename_i hdone
        rw [runs_settle, runs_abandon, List.modify_modify_eq]
        exact modify_congr_of_get hr (by simp [Run.finalizeError, hdone])

theorem runs_failInFlight (s : WorkerPool) (r : ℕ) (err : WorkerPoolError) :
    (s.failInFlight o r err).runs = s.runs.modify r fun run => run.failInFlight err := by
  cases hr : s.runs[r]? with
  | none => simp only [failInFlight, hr, modify_of_none hr]
  | some run =>
      simp only [failInFlight, hr]
      split
      · rename_i hstream
        split
        · rename_i hdone
          exact (modify_eq_of_fixed hr (by simp [Run.failInFlight, hstream, hdone])).symm
        · rename_i hdone
          rw [runs_settle, runs_destroy, runs_abandon, List.modify_modify_eq, List.modify_modify_eq]
          exact modify_congr_of_get hr (by simp [Run.failInFlight, hstream, hdone])
      · rename_i hbuffered
        rw [runs_finalizeError, runs_destroy, List.modify_modify_eq]
        exact modify_congr_of_get hr (by simp [Run.failInFlight, hbuffered])

theorem runs_failRun (s : WorkerPool) (r : ℕ) (err : WorkerPoolError) :
    (s.failRun o r err).runs = s.runs.modify r fun run => run.failRun err := by
  cases hr : s.runs[r]? with
  | none => simp only [failRun, hr, modify_of_none hr]
  | some run =>
      simp only [failRun, hr]
      split
      · rename_i hstream
        rw [runs_failInFlight]
        exact modify_congr_of_get hr (by simp [Run.failRun, hstream])
      · rename_i hbuffered
        rw [runs_finalizeError]
        exact modify_congr_of_get hr (by simp [Run.failRun, hbuffered])

theorem runs_onResult (s : WorkerPool) (r : ℕ) (msg : Json) :
    (s.onResult o r msg).runs = s.runs.modify r fun run => run.onResult o msg := by
  cases hr : s.runs[r]? with
  | none => simp only [onResult, hr, modify_of_none hr]
  | some run =>
      simp only [onResult, hr]
      split
      · rename_i hdone
        exact (modify_eq_of_fixed hr (by simp [Run.onResult, hdone])).symm
      · rename_i hdone
        rw [runs_settle, runs_recordDevice, runs_setRun, runs_finish, List.modify_modify_eq,
          List.modify_modify_eq]
        exact modify_congr_of_get hr (by simp [Run.onResult, Run.finish, hdone])

theorem runs_onToken (s : WorkerPool) (r : ℕ) (token : JsString) :
    (s.onToken r token).runs = s.runs.modify r fun run => run.onToken token := rfl

/-- What the pool makes of a frame that is not `null`. -/
def onFrame (o : Options) (s : WorkerPool) (r : ℕ) (run : Run) (msg : Json) : WorkerPool × Bool :=
  if run.stream && isType msg "token" then (s.onToken r (coalesce o (msg.get? "token") ""), true)
  else if isType msg "error" then (s.failRun o r (run.errorFrame o msg), false)
  else if isType msg "result" then (s.onResult o r msg, false)
  else (s, true)

theorem onLine_eq (hr : s.runs[r]? = some run) (line : JsString) :
    s.onLine o r line =
      if line.isEmpty then (s, true)
      else
        match Json.parse line with
        | none => (s.failRun o r run.badJson, false)
        | some .null => ({ s with threw := true }, false)
        | some msg =>
            if textless o run msg then ({ s with threw := true }, false)
            else s.onFrame o r run msg := by
  simp only [onLine, hr]
  split
  · rfl
  · cases Json.parse line with
    | none => rfl
    | some msg => cases msg <;> rfl

theorem runs_onFrame (hr : s.runs[r]? = some run) (msg : Json) :
    (s.onFrame o r run msg).1.runs = s.runs.modify r (fun run => (run.onFrame o msg).1) ∧
      (s.onFrame o r run msg).2 = (run.onFrame o msg).2 := by
  have hsame : ∀ {t : WorkerPool} {goesOn : Bool} {f : Run → Run},
      s.onFrame o r run msg = (t, goesOn) → run.onFrame o msg = (f run, goesOn) →
      t.runs = s.runs.modify r f →
      (s.onFrame o r run msg).1.runs = s.runs.modify r (fun run => (run.onFrame o msg).1) ∧
        (s.onFrame o r run msg).2 = (run.onFrame o msg).2 := by
    intro t goesOn f hpool hview hruns
    rw [hpool, hview]
    refine ⟨?_, rfl⟩
    rw [hruns]
    exact modify_congr_of_get hr (by rw [hview])
  by_cases htoken : (run.stream && isType msg "token") = true
  · exact hsame (by rw [onFrame, if_pos htoken]) (by rw [Run.onFrame, if_pos htoken])
      (runs_onToken s r _)
  · by_cases herror : isType msg "error" = true
    · apply hsame (f := fun run' => run'.failRun (run.errorFrame o msg))
        (by rw [onFrame, if_neg htoken, if_pos herror])
        (by rw [Run.onFrame, if_neg htoken, if_pos herror])
      exact runs_failRun s r _
    · by_cases hresult : isType msg "result" = true
      · apply hsame (by rw [onFrame, if_neg htoken, if_neg herror, if_pos hresult])
          (by rw [Run.onFrame, if_neg htoken, if_neg herror, if_pos hresult])
        exact runs_onResult s r msg
      · apply hsame (by rw [onFrame, if_neg htoken, if_neg herror, if_neg hresult])
          (by rw [Run.onFrame, if_neg htoken, if_neg herror, if_neg hresult])
        exact (List.modify_id _ _).symm

/-- A line does to its run what it does to the run by itself, and the handler goes on alike. -/
theorem runs_onLine (hr : s.runs[r]? = some run) (line : JsString) :
    (s.onLine o r line).1.runs = s.runs.modify r (fun run => (run.onLine o line).1) ∧
      (s.onLine o r line).2 = (run.onLine o line).2 := by
  rw [onLine_eq hr]
  simp only [Run.onLine]
  split
  · exact ⟨(modify_eq_of_fixed hr rfl).symm, rfl⟩
  · cases Json.parse line with
    | none =>
        refine ⟨?_, rfl⟩
        rw [runs_failRun]
        exact modify_congr_of_get hr (by simp [Run.badJson])
    | some msg =>
        cases msg with
        | null => exact ⟨(modify_eq_of_fixed hr rfl).symm, rfl⟩
        | _ =>
            dsimp only
            split
            · rename_i htext
              refine ⟨(modify_eq_of_fixed hr ?_).symm, rfl⟩
              rw [if_pos htext]
            · rename_i htext
              obtain ⟨hruns, hgoes⟩ := runs_onFrame (o := o) hr _
              rw [hruns]
              refine ⟨modify_congr_of_get hr ?_, hgoes⟩
              rw [if_neg htext]

theorem runs_drain (hr : s.runs[r]? = some run) (lines : List JsString) :
    (drain o r lines s).1.runs = s.runs.modify r (fun run => (run.drain o lines).1) ∧
      (drain o r lines s).2 = (run.drain o lines).2 := by
  induction lines generalizing s run with
  | nil => exact ⟨(modify_eq_of_fixed hr rfl).symm, rfl⟩
  | cons line lines ih =>
      cases lines with
      | nil => exact ⟨(modify_eq_of_fixed hr rfl).symm, rfl⟩
      | cons next lines =>
          obtain ⟨hruns, hgoes⟩ := runs_onLine (o := o) hr (Json.trim line)
          have hr' : (s.onLine o r (Json.trim line)).1.runs[r]? =
              some (run.onLine o (Json.trim line)).1 := by
            rw [hruns, List.getElem?_modify_eq, hr]
            rfl
          simp only [drain, Run.drain]
          cases hline : s.onLine o r (Json.trim line) with
          | mk t goesOn =>
          cases hview : run.onLine o (Json.trim line) with
          | mk run' goesOn' =>
          rw [hline, hview] at hgoes hr'
          rw [hline] at hruns
          dsimp only at hgoes hr' hruns
          subst hgoes
          cases goesOn with
          | true =>
              obtain ⟨hrest, hbuffer⟩ := ih hr'
              refine ⟨?_, hbuffer⟩
              dsimp only
              rw [hrest, hruns, List.modify_modify_eq]
              exact modify_congr_of_get hr (by simp [hview])
          | false =>
              refine ⟨?_, rfl⟩
              dsimp only
              rw [hruns]
              exact modify_congr_of_get hr (by simp [hview])

theorem runs_onData (s : WorkerPool) (r : ℕ) (chunk : List UInt8) :
    (s.onData o r chunk).runs = s.runs.modify r fun run => run.onData o chunk := by
  cases hr : s.runs[r]? with
  | none => simp only [onData, hr, modify_of_none hr]
  | some run =>
      obtain ⟨hruns, hbuffer⟩ :=
        runs_drain (o := o) hr ((run.buffer ++ Utf8.decode chunk).splitOn 0x0A)
      simp only [onData, hr]
      rw [runs_setRun, hruns, hbuffer, List.modify_modify_eq]
      exact modify_congr_of_get hr rfl

theorem runs_onError (s : WorkerPool) (r : ℕ) (message : JsString) :
    ((s.errored r).onError o r message).runs =
      s.runs.modify r fun run => run.onError message := by
  cases hr : s.runs[r]? with
  | none =>
      have hr' : (s.errored r).runs[r]? = none := by
        rw [errored, getElem?_setRun, if_pos rfl, hr, Option.map_none]
      simp only [onError, hr']
      rw [errored, runs_setRun, modify_of_none hr, modify_of_none hr]
  | some run =>
      have hr' : (s.errored r).runs[r]? =
          some { run with destroyed := true, destroyError := none } := by
        rw [errored, getElem?_setRun, if_pos rfl, hr, Option.map_some]
      simp only [onError, hr']
      rw [runs_failRun, errored, runs_setRun, List.modify_modify_eq]
      exact modify_congr_of_get hr rfl

theorem runs_onClose (s : WorkerPool) (r : ℕ) :
    ((s.closed r).onClose o r).runs = s.runs.modify r Run.onClose := by
  cases hr : s.runs[r]? with
  | none =>
      have hr' : (s.closed r).runs[r]? = none := by
        rw [closed, getElem?_setRun, if_pos rfl, hr, Option.map_none]
      simp only [onClose, hr']
      rw [closed, runs_setRun, modify_of_none hr, modify_of_none hr]
  | some run =>
      have hr' : (s.closed r).runs[r]? = some { run with destroyed := true, closed := true } := by
        rw [closed, getElem?_setRun, if_pos rfl, hr, Option.map_some]
      simp only [onClose, hr']
      split
      · rename_i hdone
        rw [closed, runs_setRun]
        exact modify_congr_of_get hr (by simp [Run.onClose, hdone])
      · rename_i hdone
        rw [runs_failRun, closed, runs_setRun, List.modify_modify_eq]
        exact modify_congr_of_get hr (by simp [Run.onClose, hdone, Run.closeError])

theorem runs_connectTimeout (s : WorkerPool) (r : ℕ) :
    (s.connectTimeout r).runs = s.runs.modify r Run.timeOut := by
  cases hr : s.runs[r]? with
  | none => simp only [connectTimeout, hr, modify_of_none hr]
  | some run =>
      simp only [connectTimeout, hr]
      rw [runs_destroy, runs_setRun, List.modify_modify_eq]
      exact modify_congr_of_get hr rfl

@[simp] theorem runs_refreshWorker (reading : Reading) (s : WorkerPool) (w : ℤ) :
    (s.refreshWorker o reading w).runs = s.runs := by
  unfold refreshWorker
  split
  · rfl
  · split_ifs
    · rfl
    · exact runs_setWorker s w _
    · rw [runs_scheduleRecoveryProbe, runs_setWorker, runs_clearTimeout]
    · exact runs_setWorker s w _

@[simp] theorem runs_refreshWorkerReadiness (s : WorkerPool) (reading : Reading) :
    (s.refreshWorkerReadiness o reading).runs = s.runs := by
  unfold refreshWorkerReadiness
  generalize s.workers.keys = keys
  induction keys generalizing s with
  | nil => rfl
  | cons w keys ih => rw [List.foldl_cons, ih, runs_refreshWorker]

@[simp] theorem runs_revive (s : WorkerPool) (w now : ℤ) (st : WorkerStatus) :
    (s.revive w now st).runs = s.runs := by
  unfold revive
  split
  · rfl
  · split
    · rfl
    · rw [runs_setWorker, runs_clearTimeout]

@[simp] theorem runs_probed (s : WorkerPool) (w now : ℤ) (alive : Bool) :
    (s.probed o w now alive).runs = s.runs := by
  unfold probed
  split
  · rfl
  · split_ifs
    · rfl
    · exact runs_setWorker s w _
    · exact runs_scheduleRecoveryProbe s w

@[simp] theorem runs_onRecoveryTimer (s : WorkerPool) (timer : RecoveryTimer) (reading : Reading) :
    (s.onRecoveryTimer o timer reading).runs = s.runs := by
  unfold onRecoveryTimer
  dsimp only
  split
  · rfl
  · rw [runs_probed, runs_clearTimeout]

@[simp] theorem runs_onProbe (s : WorkerPool) (probe : Probe) (now : ℤ) (alive : Bool) :
    (s.onProbe o probe now alive).runs = s.runs :=
  runs_probed _ _ _ _

end WorkerPool

open WorkerPool

/-- What a step of the pool can do to run `r`. -/
inductive Happens (o : Options) : PoolAction → ℕ → Run → Run → Prop
  | connect {r run} (h : run.canConnect = true) : Happens o (.connect r) r run run.connect
  | data {r run chunk} (h : run.canData = true) :
      Happens o (.data r chunk) r run (run.onData o chunk)
  | error {r run message} (h : run.canError message = true) :
      Happens o (.error r message) r run (run.onError message)
  | close {r run} (h : run.canClose = true) : Happens o (.close r) r run run.onClose
  | connectTimeout {r run} (h : run.connectTimer = true) :
      Happens o (.connectTimeout r) r run run.timeOut
  | cancel {r run} (h : run.stream = true) :
      Happens o (.cancel r) r run (run.failInFlight Run.cancelled)
  | crash {r run now w id requestId} :
      Happens o (.supervisor now (.workerCrashed w id)) r run (run.failInFlight (crashError w requestId))

namespace WorkerPool

variable {o : Options} {s s' : WorkerPool} {w : ℤ} {r : ℕ} {run : Run} {a : PoolAction}

/-- Steps that change one run in the way that happens to it. -/
theorem happens_of_modify {f : Run → Run} {ok : Run → Bool}
    (hguard : ∃ run, s.runs[r]? = some run ∧ ok run = true) (hruns : s'.runs = s.runs.modify r f)
    (hf : ∀ run, ok run = true → Happens o a r run (f run)) (k : ℕ) {run : Run}
    (hk : s.runs[k]? = some run) :
    ∃ run', s'.runs[k]? = some run' ∧ (run' = run ∨ Happens o a k run run') := by
  obtain ⟨run₀, hr, hok⟩ := hguard
  by_cases hkr : r = k
  · subst hkr
    obtain rfl := Option.some.inj (hr.symm.trans hk)
    refine ⟨f run₀, ?_, .inr (hf run₀ hok)⟩
    rw [hruns, List.getElem?_modify_eq, hk]
    rfl
  · refine ⟨run, ?_, .inl rfl⟩
    rw [hruns, List.getElem?_modify_ne _ _ hkr, hk]

/-- A crash notice leaves the runs alone that are not in flight on the worker. -/
theorem runs_crashes (entries : List (JsString × InFlight)) (s : WorkerPool) {k : ℕ}
    (hne : ∀ e ∈ entries, e.2.run ≠ k) :
    (entries.foldl (fun s e => s.failInFlight o e.2.run (crashError w e.1)) s).runs[k]? =
      s.runs[k]? := by
  induction entries generalizing s with
  | nil => rfl
  | cons e entries ih =>
      rw [List.foldl_cons, ih _ fun e' he' => hne e' (List.mem_cons_of_mem e he'), runs_failInFlight,
        List.getElem?_modify_ne _ _ (hne e List.mem_cons_self)]

theorem runs_markWorkerCrashed (s : WorkerPool) (w : ℤ) {k : ℕ}
    (hne : ∀ id e, s.inFlight.get? id = some e → e.workerId = w → e.run ≠ k) :
    (s.markWorkerCrashed o w []).runs[k]? = s.runs[k]? := by
  unfold markWorkerCrashed
  split
  · rfl
  · rw [runs_scheduleRecoveryProbe, runs_setWorker, runs_clearTimeout, runs_crashes, runs_setWorker]
    intro e he
    have hmem : e ∈ s.inFlight.entries ∧ e.2.workerId = w := by
      simpa [affected] using he
    exact hne e.1 e.2 (OrderedMap.get?_eq_some_iff.mpr hmem.1) hmem.2

theorem happens_crashes (o : Options) (now w : ℤ) (id : JsString)
    (entries : List (JsString × InFlight)) (s : WorkerPool) (k : ℕ) {run : Run}
    (hk : s.runs[k]? = some run) :
    ∃ run', (entries.foldl (fun s e => s.failInFlight o e.2.run (crashError w e.1)) s).runs[k]? =
        some run' ∧
      Relation.ReflTransGen (Happens o (.supervisor now (.workerCrashed w id)) k) run run' := by
  induction entries generalizing s run with
  | nil => exact ⟨run, hk, .refl⟩
  | cons e entries ih =>
      have hruns := runs_failInFlight (o := o) s e.2.run (crashError w e.1)
      by_cases hke : e.2.run = k
      · have hfailed : (s.failInFlight o e.2.run (crashError w e.1)).runs[k]? =
            some (run.failInFlight (crashError w e.1)) := by
          rw [hruns, hke, List.getElem?_modify_eq, hk]
          rfl
        obtain ⟨run', hrun', hrest⟩ := ih _ hfailed
        exact ⟨run', hrun', .head .crash hrest⟩
      · apply ih
        rw [hruns, List.getElem?_modify_ne _ _ hke, hk]

/-- A run stays or one thing happens to it, and only a crash notice can do more. -/
theorem touched_of_step (hs : poolStep o s a = some s') (k : ℕ) (hk : s.runs[k]? = some run) :
    ∃ run', s'.runs[k]? = some run' ∧ (run' = run ∨ Happens o a k run run' ∨
      ∃ now w id, a = .supervisor now (.workerCrashed w id) ∧
        Relation.ReflTransGen (Happens o a k) run run') := by
  have hsame : s'.runs = s.runs →
      ∃ run', s'.runs[k]? = some run' ∧ (run' = run ∨ Happens o a k run run' ∨
        ∃ now w id, a = .supervisor now (.workerCrashed w id) ∧
          Relation.ReflTransGen (Happens o a k) run run') :=
    fun heq => ⟨run, by rw [heq, hk], .inl rfl⟩
  have honce : (∃ run', s'.runs[k]? = some run' ∧ (run' = run ∨ Happens o a k run run')) →
      ∃ run', s'.runs[k]? = some run' ∧ (run' = run ∨ Happens o a k run run' ∨
        ∃ now w id, a = .supervisor now (.workerCrashed w id) ∧
          Relation.ReflTransGen (Happens o a k) run run') := by
    rintro ⟨run', hk', h | h⟩
    · exact ⟨run', hk', .inl h⟩
    · exact ⟨run', hk', .inr (.inl h)⟩
  unfold poolStep at hs
  split at hs
  · cases hs
  cases a with
  | infer reading request =>
      dsimp only at hs
      split at hs
      · cases hs
      · obtain rfl := Option.some.inj hs
        obtain hnone | ⟨w, -, hopened⟩ := infer_cases (o := o) s reading request
        · exact hsame (by rw [hnone, runs_refreshWorkerReadiness])
        · refine ⟨run, ?_, .inl rfl⟩
          rw [hopened, openRun, runs_setWorker, runs_refreshWorkerReadiness,
            List.getElem?_append_left, hk]
          exact (List.getElem?_eq_some_iff.mp hk).1
  | getHealth reading =>
      obtain rfl := Option.some.inj hs
      exact hsame (runs_refreshWorkerReadiness s reading)
  | supervisor now msg =>
      obtain rfl := Option.some.inj hs
      cases msg with
      | workerCrashed w id =>
          simp only [handleSupervisorMessage, markWorkerCrashed]
          split
          · exact ⟨run, hk, .inl rfl⟩
          · rw [runs_scheduleRecoveryProbe, runs_setWorker, runs_clearTimeout]
            obtain ⟨run', hk', hchain⟩ := happens_crashes o now w id
              (affected (s.setWorker w fun e => { e with status := .crashed }) w id) _ k
              ((congrArg (fun runs => runs[k]?) (runs_setWorker s w _)).trans hk)
            exact ⟨run', hk', .inr (.inr ⟨now, w, id, rfl, hchain⟩)⟩
      | workerRestarted w =>
          apply hsame
          simp only [handleSupervisorMessage]
          split
          · rfl
          · split
            · rfl
            · rw [runs_scheduleRecoveryProbe, runs_revive]
      | workerReady w => exact hsame (runs_revive s w now .ready)
  | connect r =>
      obtain ⟨run₀, hr, hok, rfl⟩ := guardRun_eq hs
      exact honce <| happens_of_modify ⟨run₀, hr, hok⟩ (runs_setRun s r _) (fun _ h => .connect h) k hk
  | data r chunk =>
      obtain ⟨run₀, hr, hok, rfl⟩ := guardRun_eq hs
      exact honce <| happens_of_modify ⟨run₀, hr, hok⟩ (runs_onData s r chunk) (fun _ h => .data h) k hk
  | error r message =>
      obtain ⟨run₀, hr, hok, rfl⟩ := guardRun_eq hs
      exact honce <| happens_of_modify ⟨run₀, hr, hok⟩ (runs_onError s r message) (fun _ h => .error h) k hk
  | close r =>
      obtain ⟨run₀, hr, hok, rfl⟩ := guardRun_eq hs
      exact honce <| happens_of_modify ⟨run₀, hr, hok⟩ (runs_onClose s r) (fun _ h => .close h) k hk
  | connectTimeout r =>
      obtain ⟨run₀, hr, hok, rfl⟩ := guardRun_eq hs
      exact honce <| happens_of_modify ⟨run₀, hr, hok⟩ (runs_connectTimeout s r)
        (fun _ h => .connectTimeout h) k hk
  | cancel r =>
      obtain ⟨run₀, hr, hok, rfl⟩ := guardRun_eq hs
      exact honce <| happens_of_modify ⟨run₀, hr, hok⟩ (runs_failInFlight s r _) (fun _ h => .cancel h) k hk
  | recoveryTimer id reading =>
      obtain ⟨timer, -, rfl⟩ := Option.map_eq_some_iff.mp hs
      exact hsame (runs_onRecoveryTimer s timer reading)
  | probe id now alive =>
      obtain ⟨probe, -, rfl⟩ := Option.map_eq_some_iff.mp hs
      exact hsame (runs_onProbe s probe now alive)

/-- Every run goes on as what happens to it says. -/
theorem happens_of_step (hs : poolStep o s a = some s') (k : ℕ) (hk : s.runs[k]? = some run) :
    ∃ run', s'.runs[k]? = some run' ∧ Relation.ReflTransGen (Happens o a k) run run' := by
  obtain ⟨run', hk', rfl | h | ⟨-, -, -, -, hchain⟩⟩ := touched_of_step hs k hk
  · exact ⟨run', hk', .refl⟩
  · exact ⟨run', hk', .single h⟩
  · exact ⟨run', hk', hchain⟩

end WorkerPool

/-- A run is done exactly when its promise is settled, and until then its socket has a failure
to report still, if it is destroyed. -/
structure Run.Kept (run : Run) : Prop where
  settled : run.done = run.outcome.isSome
  socket : run.done = false → run.closed = false ∧ (run.destroyed = true → run.destroyError.isSome)

namespace Run

variable {o : Options} {run run' : Run}

theorem Kept.of_done (hdone : run.done = true) (hout : run.outcome.isSome = true) : run.Kept :=
  ⟨hdone.trans hout.symm, fun h => by rw [hdone] at h; cases h⟩

theorem kept_settle (run : Run) (outcome : Outcome) (hdone : run.done = true) :
    (run.settle outcome).Kept := by
  refine Kept.of_done hdone ?_
  cases h : run.outcome <;> simp [settle, h]

theorem done_destroy (run : Run) (err : Option WorkerPoolError) :
    (run.destroy err).done = run.done := by
  unfold destroy
  split <;> rfl

theorem outcome_destroy (run : Run) (err : Option WorkerPoolError) :
    (run.destroy err).outcome = run.outcome := by
  unfold destroy
  split <;> rfl

theorem Kept.destroy_done (h : run.Kept) (hdone : run.done = true) (err : Option WorkerPoolError) :
    (run.destroy err).Kept := by
  refine .of_done (by rw [done_destroy, hdone]) ?_
  rw [outcome_destroy, ← h.settled, hdone]

theorem kept_finalizeError (h : run.done = true → run.Kept) (err : WorkerPoolError) :
    (run.finalizeError err).Kept := by
  unfold finalizeError
  split
  · rename_i hdone
    exact h hdone
  · exact kept_settle _ _ rfl

/-- Failing a run settles it; what was kept when it was done already stays. -/
theorem kept_failInFlight (h : run.done = true → run.Kept) (err : WorkerPoolError) :
    (run.failInFlight err).Kept := by
  unfold failInFlight
  split
  · split
    · rename_i hdone
      exact h hdone
    · apply kept_settle
      rw [done_destroy]
      rfl
  · apply kept_finalizeError
    intro hdone
    rw [done_destroy] at hdone
    exact (h hdone).destroy_done hdone none

theorem kept_failRun (h : run.done = true → run.Kept) (err : WorkerPoolError) :
    (run.failRun err).Kept := by
  unfold failRun
  split
  · exact kept_failInFlight h err
  · exact kept_finalizeError h err

theorem kept_onResult (h : run.Kept) (msg : Json) : (run.onResult o msg).Kept := by
  unfold onResult
  split
  · exact h
  · exact kept_settle _ _ rfl

theorem kept_onLine (h : run.Kept) (line : JsString) : (run.onLine o line).1.Kept := by
  unfold onLine
  split
  · exact h
  · split
    · exact kept_failRun (fun _ => h) _
    · exact h
    · unfold onFrame
      split_ifs
      · exact h
      · exact ⟨h.settled, h.socket⟩
      · exact kept_failRun (fun _ => h) _
      · exact kept_onResult h _
      · exact h

theorem kept_drain (h : run.Kept) (lines : List JsString) : (run.drain o lines).1.Kept := by
  induction lines generalizing run with
  | nil => exact h
  | cons line lines ih =>
      cases lines with
      | nil => exact h
      | cons next lines =>
          have hline := kept_onLine (o := o) h (Json.trim line)
          unfold drain
          split
          · rename_i heq
            rw [heq] at hline
            exact ih hline
          · rename_i heq
            rw [heq] at hline
            exact hline

theorem Kept.happens {a : PoolAction} {r : ℕ} (h : run.Kept) (ha : Happens o a r run run') :
    run'.Kept := by
  have hsame : ∀ t : Run, t.done = run.done → t.outcome = run.outcome →
      t.done = true → t.Kept := by
    intro t hd ho hdone
    exact .of_done hdone (by rw [ho, ← h.settled, ← hd, hdone])
  cases ha with
  | connect => exact ⟨h.settled, h.socket⟩
  | data =>
      unfold onData
      have hdrained := kept_drain (o := o) h
      exact ⟨(hdrained _).settled, (hdrained _).socket⟩
  | error =>
      unfold onError
      exact kept_failRun (hsame { run with destroyed := true, destroyError := none } rfl rfl) _
  | close =>
      unfold onClose
      split
      · rename_i hdone
        exact hsame _ rfl rfl hdone
      · exact kept_failRun (hsame { run with destroyed := true, closed := true } rfl rfl) _
  | connectTimeout =>
      unfold timeOut destroy
      split
      · exact ⟨h.settled, h.socket⟩
      · exact ⟨h.settled, fun hdone => ⟨(h.socket hdone).1, fun _ => rfl⟩⟩
  | cancel => exact kept_failInFlight (fun _ => h) _
  | crash => exact kept_failInFlight (fun _ => h) _

theorem Kept.happens_all {a : PoolAction} {r : ℕ} (h : run.Kept)
    (ha : Relation.ReflTransGen (Happens o a r) run run') : run'.Kept := by
  induction ha with
  | refl => exact h
  | tail _ hstep ih => exact ih.happens hstep

theorem outcome_failInFlight_of_done (hdone : run.done = true) (err : WorkerPoolError) :
    (run.failInFlight err).outcome = run.outcome := by
  unfold failInFlight
  rw [if_pos hdone]
  split
  · rfl
  · unfold finalizeError
    rw [done_destroy, if_pos hdone]
    exact outcome_destroy run none

theorem isSome_settle (run : Run) (x : Outcome) : (run.settle x).outcome.isSome = true := by
  unfold settle
  cases run.outcome <;> rfl

/-- Failing a run that is not done settles it. -/
theorem isSome_failInFlight (hdone : run.done = false) (err : WorkerPoolError) :
    (run.failInFlight err).outcome.isSome = true := by
  have hopen : ¬ run.done = true := Bool.eq_false_iff.mp hdone
  unfold failInFlight
  rw [if_neg hopen]
  split
  · exact isSome_settle _ _
  · unfold finalizeError
    rw [done_destroy, if_neg hopen]
    exact isSome_settle _ _

/-- What only a connection changes in a run, and what never goes back: a promise is settled once,
and a destroyed socket stays so. -/
structure Later (run run' : Run) : Prop where
  workerId : run'.workerId = run.workerId
  outcome : ∀ x, run.outcome = some x → run'.outcome = some x
  done : run.done = true → run'.done = true
  written : run'.written = run.written
  destroyed : run.destroyed = true → run'.destroyed = true

theorem Later.refl (run : Run) : run.Later run := ⟨rfl, fun _ h => h, id, rfl, id⟩

theorem Later.trans {run'' : Run} (h : run.Later run') (h' : run'.Later run'') : run.Later run'' where
  workerId := h'.workerId.trans h.workerId
  outcome := fun x hx => h'.outcome x (h.outcome x hx)
  done := h'.done ∘ h.done
  written := h'.written.trans h.written
  destroyed := h'.destroyed ∘ h.destroyed

theorem later_settle (run : Run) (y : Outcome) : run.Later (run.settle y) :=
  { Later.refl run with
    outcome := fun x hx => by
      unfold settle
      rw [hx]
      rfl }

theorem later_finish (run : Run) : run.Later run.finish := { Later.refl run with done := fun _ => rfl }

theorem later_destroy (run : Run) (err : Option WorkerPoolError) : run.Later (run.destroy err) := by
  unfold destroy
  split
  · exact .refl run
  · exact { Later.refl run with destroyed := fun _ => rfl }

theorem later_finalizeError (run : Run) (err : WorkerPoolError) :
    run.Later (run.finalizeError err) := by
  unfold finalizeError
  split
  · exact .refl run
  · exact run.later_finish.trans (later_settle _ _)

theorem later_failInFlight (run : Run) (err : WorkerPoolError) :
    run.Later (run.failInFlight err) := by
  unfold failInFlight
  split
  · split
    · exact .refl run
    · exact (run.later_finish.trans (later_destroy _ _)).trans (later_settle _ _)
  · exact (run.later_destroy none).trans (later_finalizeError _ _)

theorem later_failRun (run : Run) (err : WorkerPoolError) : run.Later (run.failRun err) := by
  unfold failRun
  split
  · exact run.later_failInFlight err
  · exact run.later_finalizeError err

theorem later_onResult (run : Run) (msg : Json) : run.Later (run.onResult o msg) := by
  unfold onResult
  split
  · exact .refl run
  · refine Later.trans ?_ (later_settle _ _)
    exact { run.later_finish with }

theorem later_onLine (run : Run) (line : JsString) : run.Later (run.onLine o line).1 := by
  unfold onLine
  split
  · exact .refl run
  · split
    · exact run.later_failRun _
    · exact .refl run
    · unfold onFrame
      split_ifs
      · exact .refl run
      · exact { Later.refl run with }
      · exact run.later_failRun _
      · exact run.later_onResult _
      · exact .refl run

theorem later_drain (run : Run) (lines : List JsString) : run.Later (run.drain o lines).1 := by
  induction lines generalizing run with
  | nil => exact .refl run
  | cons line lines ih =>
      cases lines with
      | nil => exact .refl run
      | cons next lines =>
          have hline := run.later_onLine (o := o) (Json.trim line)
          unfold drain
          split
          · rename_i heq
            rw [heq] at hline
            exact hline.trans (ih _)
          · rename_i heq
            rw [heq] at hline
            exact hline

theorem later_onData (run : Run) (chunk : List UInt8) : run.Later (run.onData o chunk) := by
  have hdrained := run.later_drain (o := o) ((run.buffer ++ Utf8.decode chunk).splitOn 0x0A)
  exact hdrained.trans { Later.refl _ with }

theorem later_onError (run : Run) (message : JsString) : run.Later (run.onError message) := by
  refine Later.trans ?_ (later_failRun _ _)
  exact { Later.refl run with destroyed := fun _ => rfl }

theorem later_onClose (run : Run) : run.Later run.onClose := by
  unfold onClose
  split
  · exact { Later.refl run with destroyed := fun _ => rfl }
  · refine Later.trans ?_ (later_failRun _ _)
    exact { Later.refl run with destroyed := fun _ => rfl }

theorem later_timeOut (run : Run) : run.Later run.timeOut := by
  refine Later.trans ?_ (later_destroy _ _)
  exact { Later.refl run with }

/-- What happens to a run but its connection. -/
theorem later_happens {a : PoolAction} {r : ℕ} (hne : a ≠ .connect r) (ha : Happens o a r run run') :
    run.Later run' := by
  cases ha with
  | connect => exact absurd rfl hne
  | data => exact run.later_onData _
  | error => exact run.later_onError _
  | close => exact run.later_onClose
  | connectTimeout => exact run.later_timeOut
  | cancel => exact run.later_failInFlight _
  | crash => exact run.later_failInFlight _

theorem later_happens_all {a : PoolAction} {r : ℕ} (hne : a ≠ .connect r)
    (ha : Relation.ReflTransGen (Happens o a r) run run') : run.Later run' := by
  induction ha with
  | refl => exact .refl run
  | tail _ hstep ih => exact ih.trans (later_happens hne hstep)

/-- A run that is done has a socket that has been written or is destroyed. -/
def Used (run : Run) : Prop := run.done = true → run.written = true ∨ run.destroyed = true

theorem Later.used (h : run.Later run') (hused : run.written = true ∨ run.destroyed = true) :
    run'.Used :=
  fun _ => hused.imp (h.written.trans ·) h.destroyed

theorem used_failInFlight (h : run.Used) (err : WorkerPoolError) : (run.failInFlight err).Used := by
  by_cases hdone : run.done = true
  · exact (run.later_failInFlight err).used (h hdone)
  · intro _
    right
    have hdestroyed : ∀ t : Run, (t.destroy none).destroyed = true := by
      intro t
      unfold destroy
      split
      · assumption
      · rfl
    unfold failInFlight
    rw [if_neg hdone]
    split
    · exact hdestroyed run.finish
    · exact (later_finalizeError _ _).destroyed (hdestroyed run)

theorem Used.happens {a : PoolAction} {r : ℕ} (h : run.Used) (ha : Happens o a r run run') :
    run'.Used := by
  cases ha with
  | connect => exact fun _ => .inl rfl
  | data hcan =>
      rw [canData, Bool.and_eq_true] at hcan
      exact (run.later_onData _).used (.inl hcan.1)
  | error =>
      apply (later_failRun _ _).used
      exact .inr rfl
  | close =>
      unfold onClose
      split
      · exact fun _ => .inr rfl
      · apply (later_failRun _ _).used
        exact .inr rfl
  | connectTimeout =>
      intro hdone
      have hsame : run.timeOut.done = run.done := done_destroy _ _
      exact run.later_timeOut.used (h (hsame ▸ hdone)) hdone
  | cancel => exact used_failInFlight h _
  | crash => exact used_failInFlight h _

theorem Used.happens_all {a : PoolAction} {r : ℕ} (h : run.Used)
    (ha : Relation.ReflTransGen (Happens o a r) run run') : run'.Used := by
  induction ha with
  | refl => exact h
  | tail _ hstep ih => exact ih.happens hstep

end Run

namespace WorkerPool

variable {o : Options} {s s' : WorkerPool} {w : ℤ} {r : ℕ} {run : Run} {a : PoolAction}

theorem length_crashes (entries : List (JsString × InFlight)) (s : WorkerPool) :
    (entries.foldl (fun s e => s.failInFlight o e.2.run (crashError w e.1)) s).runs.length =
      s.runs.length := by
  induction entries generalizing s with
  | nil => rfl
  | cons e entries ih => rw [List.foldl_cons, ih, runs_failInFlight, List.length_modify]

/-- Only a request opens a run. -/
theorem runs_of_step (hs : poolStep o s a = some s') :
    s'.runs.length = s.runs.length ∨
      ∃ reading request w, a = .infer reading request ∧ s'.runs = s.runs ++ [{
        workerId := w
        requestId := request.requestId
        prompt := request.prompt
        mfeId := request.mfeId
        stream := request.stream }] := by
  unfold poolStep at hs
  split at hs
  · cases hs
  cases a with
  | infer reading request =>
      dsimp only at hs
      split at hs
      · cases hs
      · obtain rfl := Option.some.inj hs
        obtain hnone | ⟨w, -, hopened⟩ := infer_cases (o := o) s reading request
        · exact .inl (by rw [hnone, runs_refreshWorkerReadiness])
        · refine .inr ⟨reading, request, w, rfl, ?_⟩
          rw [hopened, openRun, runs_setWorker, runs_refreshWorkerReadiness]
  | getHealth reading =>
      obtain rfl := Option.some.inj hs
      exact .inl (by rw [runs_refreshWorkerReadiness])
  | supervisor now msg =>
      obtain rfl := Option.some.inj hs
      refine .inl ?_
      cases msg with
      | workerCrashed w id =>
          simp only [handleSupervisorMessage, markWorkerCrashed]
          split
          · rfl
          · rw [runs_scheduleRecoveryProbe, runs_setWorker, runs_clearTimeout, length_crashes,
              runs_setWorker]
      | workerRestarted w =>
          simp only [handleSupervisorMessage]
          split
          · rfl
          · split
            · rfl
            · rw [runs_scheduleRecoveryProbe, runs_revive]
      | workerReady w => exact congrArg List.length (runs_revive s w now .ready)
  | connect r =>
      obtain ⟨-, -, -, rfl⟩ := guardRun_eq hs
      exact .inl (List.length_modify _ _ _)
  | data r chunk =>
      obtain ⟨-, -, -, rfl⟩ := guardRun_eq hs
      exact .inl (by rw [runs_onData, List.length_modify])
  | error r message =>
      obtain ⟨-, -, -, rfl⟩ := guardRun_eq hs
      exact .inl (by rw [runs_onError, List.length_modify])
  | close r =>
      obtain ⟨-, -, -, rfl⟩ := guardRun_eq hs
      exact .inl (by rw [runs_onClose, List.length_modify])
  | connectTimeout r =>
      obtain ⟨-, -, -, rfl⟩ := guardRun_eq hs
      exact .inl (by rw [runs_connectTimeout, List.length_modify])
  | cancel r =>
      obtain ⟨-, -, -, rfl⟩ := guardRun_eq hs
      exact .inl (by rw [cancel, runs_failInFlight, List.length_modify])
  | recoveryTimer id reading =>
      obtain ⟨timer, -, rfl⟩ := Option.map_eq_some_iff.mp hs
      exact .inl (by rw [runs_onRecoveryTimer])
  | probe id now alive =>
      obtain ⟨probe, -, rfl⟩ := Option.map_eq_some_iff.mp hs
      exact .inl (by rw [runs_onProbe])

/-- A run of the next state is one of this state gone on, or it is new. -/
theorem run_of_step (hs : poolStep o s a = some s') {run' : Run} (hr : s'.runs[r]? = some run') :
    (∃ run, s.runs[r]? = some run ∧ Relation.ReflTransGen (Happens o a r) run run') ∨
      ∃ reading request w, a = .infer reading request ∧ s.runs.length = r ∧ run' = {
        workerId := w
        requestId := request.requestId
        prompt := request.prompt
        mfeId := request.mfeId
        stream := request.stream } := by
  cases hold : s.runs[r]? with
  | some run =>
      obtain ⟨run'', hr'', hchain⟩ := happens_of_step hs r hold
      obtain rfl := Option.some.inj (hr''.symm.trans hr)
      exact .inl ⟨run, rfl, hchain⟩
  | none =>
      have hle := List.getElem?_eq_none_iff.mp hold
      obtain hlen | ⟨reading, request, w, ha, hruns⟩ := runs_of_step hs
      · have hlt := (List.getElem?_eq_some_iff.mp hr).1
        omega
      · refine .inr ⟨reading, request, w, ha, ?_⟩
        rw [hruns, List.getElem?_append_right hle, List.getElem?_singleton] at hr
        split at hr
        · exact ⟨by omega, (Option.some.inj hr).symm⟩
        · cases hr

/-- A run goes on, or its socket connects. -/
theorem later_of_step (hs : poolStep o s a = some s') (hk : s.runs[r]? = some run) :
    ∃ run', s'.runs[r]? = some run' ∧
      (run.Later run' ∨ a = .connect r ∧ run.canConnect = true ∧ run' = run.connect) := by
  obtain ⟨run', hk', htouched⟩ := touched_of_step hs r hk
  refine ⟨run', hk', ?_⟩
  obtain rfl | h | ⟨now, w, id, rfl, hchain⟩ := htouched
  · exact .inl (.refl _)
  · by_cases ha : a = .connect r
    · subst ha
      cases h with
      | connect hcan => exact .inr ⟨rfl, hcan, rfl⟩
    · exact .inl (Run.later_happens ha h)
  · exact .inl (Run.later_happens_all (by simp) hchain)

/-- Every run of the pool is kept. -/
def RunsKept (s : WorkerPool) : Prop := ∀ (r : ℕ) (run : Run), s.runs[r]? = some run → run.Kept

theorem RunsKept.step (h : s.RunsKept) (hs : poolStep o s a = some s') : s'.RunsKept := by
  intro r run hr
  obtain ⟨run₀, hr₀, hchain⟩ | ⟨-, -, -, -, -, rfl⟩ := run_of_step hs hr
  · exact (h r run₀ hr₀).happens_all hchain
  · exact ⟨rfl, fun _ => ⟨rfl, fun hd => by cases hd⟩⟩

theorem runsKept_of_exec {now : ℤ} {as : List PoolAction}
    (hrun : Machine.exec (poolStep o) (WorkerPool.new o now) as = some s) : s.RunsKept := by
  refine Machine.exec_invariant ?_ (fun _ _ _ h hs => h.step hs) hrun
  intro r run hr
  simp [WorkerPool.new] at hr

end WorkerPool

end ServeInfer.ApiServer
