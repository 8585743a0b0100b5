import ServeInfer.ApiServer.Isolation
import ServeInfer.ApiServer.Recovery

/-!
# Two error ladders

`POST /infer` and `GET /infer/stream` each have a ladder that turns the error of
a run into what its caller reads, and the client retries by what it reads. The
stream's ladder has no rung for `no_ready_workers`, so the two say the same of a
failure exactly when a worker was there when the run was asked for.
-/

namespace ServeInfer.ApiServer

/-- The body of a reply, or the payload of an event. -/
def StreamReply.payload : StreamReply → Json
  | .json reply => reply.body
  | .event e => e.payload

namespace Retry

/-- `RETRYABLE_ERRORS`. -/
def retryableErrors : List JsString :=
  ["worker_crashed", "no_ready_workers", "queue_timeout", "exec_timeout", "scheduler_overloaded"].map
    Json.units

/-- `isRetryable`. -/
def isRetryable (payload : Json) : Bool :=
  match payload.get? "retryable", payload.get? "error" with
  | some (.bool true), _ => true
  | _, some (.str error) => error ∈ retryableErrors
  | _, _ => false

end Retry

/-- The two routes report one error code and one `retryAfterSeconds` for the failure, and the client
retries after both reports or after neither. -/
structure ClassifiedAlike (request : InferRequest) (replay : Bool) (err : WorkerPoolError) : Prop where
  error : (Replies.reply { request with stream := true } replay (.rejected err)).payload.get?
      "error" =
    (Replies.reply { request with stream := false } replay (.rejected err)).payload.get? "error"
  retryAfter : (Replies.reply { request with stream := true } replay (.rejected err)).payload.get?
      "retryAfterSeconds" =
    (Replies.reply { request with stream := false } replay (.rejected err)).payload.get?
      "retryAfterSeconds"
  retryable :
    Retry.isRetryable
        (Replies.reply { request with stream := true } replay (.rejected err)).payload =
      Retry.isRetryable
        (Replies.reply { request with stream := false } replay (.rejected err)).payload

/-- The worker is neither busy nor crashed, and has its socket file. -/
def WorkerPool.Available (s : WorkerPool) (reading : Reading) (w : ℤ) : Prop :=
  ∃ e, s.workers.get? w = some e ∧ e.status ≠ .busy ∧ e.status ≠ .crashed ∧
    reading.socketExists w = true

/-- The run of the execution is asked for only while a worker is available. -/
def Server.findsWorker (p : ℕ) (s : Server) : ServerAction → Prop
  | .callExecute q reading => q = p → ∃ w, s.pool.Available reading w
  | _ => True

namespace Replies

variable {request : InferRequest} {replay : Bool} {err : WorkerPoolError}

/-- Of every other error the two ladders make the same. -/
theorem payload_eq (hcode : err.code ≠ .noReadyWorkers) :
    (reply { request with stream := true } replay (.rejected err)).payload =
      (reply { request with stream := false } replay (.rejected err)).payload := by
  have hstream : reply { request with stream := true } replay (.rejected err) =
      streamError true request.requestId err := rfl
  have hpost : reply { request with stream := false } replay (.rejected err) =
      .json (postError request.requestId err) := rfl
  rw [hstream, hpost, streamError, postError, if_neg hcode]
  by_cases hcrashed : err.code = .workerCrashed
  · rw [if_pos hcrashed, if_pos hcrashed]
    rfl
  · rw [if_neg hcrashed, if_neg hcrashed]
    rfl

/-- The first member of an object whose other members have other names. -/
theorem get?_object_cons {key : String} {value : Json} {members : List (String × Json)}
    {names : List String} (hnames : members.map Prod.fst = names)
    (h : ∀ name ∈ names, Json.units name ≠ Json.units key) :
    (object ((key, value) :: members)).get? key = some value := by
  have hnone : (members.reverse.map fun m => (Json.units m.1, m.2)).find?
      (fun m => m.1 = Json.units key) = none := by
    rw [List.find?_eq_none]
    intro m hm
    obtain ⟨n, hn, rfl⟩ := List.mem_map.mp hm
    simpa using h n.1 (hnames ▸ List.mem_map_of_mem (List.mem_reverse.mp hn))
  rw [object, Json.get?, List.map_cons, List.reverse_cons, ← List.map_reverse, List.find?_append,
    hnone]
  simp

theorem error_workerUnavailable (requestId : JsString) (err : WorkerPoolError) :
    (workerUnavailable requestId err).get? "error" = some (text "worker_unavailable") := by
  have hnames : ∀ name ∈ ["message", "requestId"], Json.units name ≠ Json.units "error" := by
    decide
  exact get?_object_cons rfl hnames

theorem error_retryLater (edgeError error : String) (seconds : ℕ) (requestId : JsString) :
    (retryLater edgeError error seconds requestId).body.get? "error" = some (text error) := by
  have hnames : ∀ name ∈ ["retryAfterSeconds", "requestId"],
      Json.units name ≠ Json.units "error" := by
    decide
  exact get?_object_cons rfl hnames

/-- Where no worker was ready, only `POST /infer` says so. -/
theorem not_classifiedAlike (hcode : err.code = .noReadyWorkers) :
    ¬ ClassifiedAlike request replay err := by
  intro h
  have hstream : reply { request with stream := true } replay (.rejected err) =
      .event ⟨"error", workerUnavailable request.requestId err⟩ := by
    have hother : err.code ≠ .workerCrashed := by
      rw [hcode]
      decide
    exact if_neg hother
  have hpost : reply { request with stream := false } replay (.rejected err) =
      .json (retryLater "no_ready_workers" "no_ready_workers" (retryAfter err 1)
        request.requestId) := by
    have hother : err.code ≠ .workerCrashed := by
      rw [hcode]
      decide
    exact congrArg StreamReply.json ((if_neg hother).trans (if_pos hcode))
  have herror := h.error
  rw [hstream, hpost] at herror
  have hsame : text "worker_unavailable" = text "no_ready_workers" :=
    Option.some.inj ((error_workerUnavailable _ _).symm.trans
      (herror.trans (error_retryLater _ _ _ _)))
  have hunits := Json.str.inj hsame
  exact absurd hunits (by decide)

/-- The two ladders agree about every error but the one. -/
theorem classifiedAlike_iff :
    ClassifiedAlike request replay err ↔ err.code ≠ .noReadyWorkers := by
  constructor
  · intro h hcode
    exact not_classifiedAlike hcode h
  · intro hcode
    have heq : (reply { request with stream := true } replay (.rejected err)).payload =
        (reply { request with stream := false } replay (.rejected err)).payload := payload_eq hcode
    exact ⟨by rw [heq], by rw [heq], by rw [heq]⟩

end Replies

namespace WorkerPool

variable {o : Options} {s s' : WorkerPool} {reading : Reading} {w : ℤ} {a : PoolAction}

/-- A refresh makes a worker ready exactly when it is available. -/
theorem ready_refreshWorker :
    (s.refreshWorker o reading w).status w = some .ready ↔ s.Available reading w := by
  unfold refreshWorker Available
  cases he : s.workers.get? w with
  | none => simp [status, he]
  | some e =>
      have hset : ∀ (t : WorkerPool) (st : WorkerStatus) (f : WorkerEntry → WorkerEntry),
          t.workers = s.workers → (∀ e, (f e).status = st) →
            (t.setWorker w f).status w = some st := by
        intro t st f ht hf
        rw [status, get?_setWorker, if_pos rfl, ht, he, Option.map_some, Option.map_some, hf]
      simp only [Option.some.injEq, exists_eq_left']
      split_ifs with hsettled hsocket hgrace
      · rw [status_of_get? he]
        constructor
        · intro hready
          rw [Option.some.inj hready] at hsettled
          simp at hsettled
        · rintro ⟨hbusy, hcrashed, -⟩
          exact absurd hsettled (not_or.mpr ⟨hbusy, hcrashed⟩)
      · rw [hset s .ready _ rfl fun _ => rfl]
        exact iff_of_true rfl ⟨(not_or.mp hsettled).1, (not_or.mp hsettled).2, hsocket⟩
      · rw [(quiet_scheduleRecoveryProbe _ w).status,
          hset (s.clearTimeout e.recoveryTimer) .crashed _ rfl fun _ => rfl]
        exact iff_of_false (by decide) fun h => hsocket h.2.2
      · rw [hset s .starting _ rfl fun _ => rfl]
        exact iff_of_false (by decide) fun h => hsocket h.2.2

/-- A refresh of other workers. -/
theorem status_refreshWorkers_of_notMem {ws : List ℤ} (hw : w ∉ ws) :
    (ws.foldl (refreshWorker o reading) s).status w = s.status w := by
  induction ws generalizing s with
  | nil => rfl
  | cons v ws ih =>
      rw [List.mem_cons, not_or] at hw
      rw [List.foldl_cons, ih hw.2, status, get?_refreshWorker_of_ne reading (Ne.symm hw.1), status]

/-- A refresh of several workers, each once. -/
theorem ready_refreshWorkers {ws : List ℤ} (hws : ws.Nodup) (hw : w ∈ ws) :
    (ws.foldl (refreshWorker o reading) s).status w = some .ready ↔ s.Available reading w := by
  induction ws generalizing s with
  | nil => cases hw
  | cons v ws ih =>
      obtain ⟨hv, hws⟩ := List.nodup_cons.mp hws
      rw [List.foldl_cons]
      obtain rfl | hmem := List.mem_cons.mp hw
      · rw [status_refreshWorkers_of_notMem hv, ready_refreshWorker]
      · have hne : v ≠ w := fun heq => hv (heq ▸ hmem)
        rw [ih hws hmem, Available, get?_refreshWorker_of_ne reading hne, Available]

theorem ready_refreshWorkerReadiness :
    (s.refreshWorkerReadiness o reading).status w = some .ready ↔ s.Available reading w := by
  by_cases hw : w ∈ s.workers.keys
  · exact ready_refreshWorkers s.workers.keys_nodup hw
  · have hnone := OrderedMap.get?_eq_none_iff.mpr hw
    rw [refreshWorkerReadiness, status_refreshWorkers_of_notMem hw, status_of_none hnone]
    refine iff_of_false (by simp) ?_
    rintro ⟨e, he, -⟩
    rw [hnone] at he
    cases he

/-- The pool refuses a run exactly when no worker is available. -/
theorem refused_iff (request : InferRequest) :
    (s.infer o reading request).1 = none ↔ ¬ ∃ w, s.Available reading w := by
  have hfind : (s.infer o reading request).1 = none ↔
      ((s.refreshWorkerReadiness o reading).workers.entries.find? fun e => e.2.status = .ready) =
        none := by
    unfold infer acquireWorker
    dsimp only
    cases (s.refreshWorkerReadiness o reading).workers.entries.find? fun e => e.2.status = .ready with
    | none => simp
    | some e => simp
  rw [hfind, List.find?_eq_none]
  constructor
  · rintro hnone ⟨w, hw⟩
    obtain ⟨e, he, hready⟩ := Option.map_eq_some_iff.mp
      ((ready_refreshWorkerReadiness (o := o)).mpr hw)
    exact hnone (w, e) (OrderedMap.get?_eq_some_iff.mp he) (by simp [hready])
  · rintro hnone ⟨w, e⟩ hmem hready
    refine hnone ⟨w, (ready_refreshWorkerReadiness (o := o)).mp ?_⟩
    rw [status_of_get? (OrderedMap.get?_eq_some_iff.mpr hmem), of_decide_eq_true hready]

end WorkerPool

/-- The run has not failed for want of a worker. -/
def Run.OwnFailure (run : Run) : Prop :=
  ∀ err, run.outcome = some (.rejected err) → err.code ≠ .noReadyWorkers

namespace Run

variable {o : Options} {run run' : Run} {err : WorkerPoolError}

theorem OwnFailure.settle (h : run.OwnFailure) {x : Outcome}
    (hx : ∀ err, x = .rejected err → err.code ≠ .noReadyWorkers) : (run.settle x).OwnFailure := by
  intro err herr
  cases hout : run.outcome with
  | none =>
      rw [Run.settle, hout] at herr
      exact hx err (Option.some.inj herr)
  | some y =>
      rw [Run.settle, hout] at herr
      exact h err (hout.trans herr)

theorem OwnFailure.destroy (h : run.OwnFailure) (err : Option WorkerPoolError) :
    (run.destroy err).OwnFailure := by
  unfold OwnFailure
  rw [outcome_destroy]
  exact h

theorem OwnFailure.finalizeError (h : run.OwnFailure) (herr : err.code ≠ .noReadyWorkers) :
    (run.finalizeError err).OwnFailure := by
  unfold Run.finalizeError
  split
  · exact h
  · have hfinish : run.finish.OwnFailure := h
    apply hfinish.settle
    rintro _ ⟨⟩
    exact herr

theorem OwnFailure.failInFlight (h : run.OwnFailure) (herr : err.code ≠ .noReadyWorkers) :
    (run.failInFlight err).OwnFailure := by
  unfold Run.failInFlight
  split
  · split
    · exact h
    · have hfinish : run.finish.OwnFailure := h
      apply (hfinish.destroy none).settle
      rintro _ ⟨⟩
      exact herr
  · exact (h.destroy none).finalizeError herr

theorem OwnFailure.failRun (h : run.OwnFailure) (herr : err.code ≠ .noReadyWorkers) :
    (run.failRun err).OwnFailure := by
  unfold Run.failRun
  split
  · exact h.failInFlight herr
  · exact h.finalizeError herr

theorem OwnFailure.onLine (h : run.OwnFailure) (line : JsString) :
    (run.onLine o line).1.OwnFailure := by
  unfold Run.onLine
  split
  · exact h
  · split
    · exact h.failRun (by rintro ⟨⟩)
    · exact h
    · unfold onFrame
      split_ifs
      · exact h
      · exact h
      · exact h.failRun (by rintro ⟨⟩)
      · unfold onResult
        dsimp only
        split
        · exact h
        · exact OwnFailure.settle h fun _ hfalse => by cases hfalse
      · exact h

theorem OwnFailure.drain (h : run.OwnFailure) (lines : List JsString) :
    (run.drain o lines).1.OwnFailure := by
  induction lines generalizing run with
  | nil => exact h
  | cons line lines ih =>
      cases lines with
      | nil => exact h
      | cons next lines =>
          have hline := h.onLine (o := o) (Json.trim line)
          unfold Run.drain
          split
          · rename_i heq
            rw [heq] at hline
            exact ih hline
          · rename_i heq
            rw [heq] at hline
            exact hline

theorem OwnFailure.happens {a : PoolAction} {r : ℕ} (h : run.OwnFailure)
    (ha : Happens o a r run run') : run'.OwnFailure := by
  cases ha with
  | connect => exact h
  | data => exact h.drain _
  | error => exact OwnFailure.failRun h (by rintro ⟨⟩)
  | close =>
      unfold onClose
      split
      · exact h
      · exact OwnFailure.failRun h (by rintro ⟨⟩)
  | connectTimeout =>
      have htimer : ({ run with connectTimer := false } : Run).OwnFailure := h
      exact htimer.destroy _
  | cancel => exact h.failInFlight (by rintro ⟨⟩)
  | crash => exact h.failInFlight (by rintro ⟨⟩)

theorem OwnFailure.happens_all {a : PoolAction} {r : ℕ} (h : run.OwnFailure)
    (ha : Relation.ReflTransGen (Happens o a r) run run') : run'.OwnFailure := by
  induction ha with
  | refl => exact h
  | tail _ hstep ih => exact ih.happens hstep

end Run

/-- No run of the pool has failed for want of a worker. -/
def WorkerPool.OwnFailures (s : WorkerPool) : Prop :=
  ∀ (r : ℕ) (run : Run), s.runs[r]? = some run → run.OwnFailure

namespace WorkerPool

variable {o : Options} {s s' : WorkerPool} {a : PoolAction}

theorem OwnFailures.step (h : s.OwnFailures) (hs : poolStep o s a = some s') : s'.OwnFailures := by
  intro r run' hr
  obtain ⟨run, hrun, hchain⟩ | ⟨-, -, -, -, -, rfl⟩ := run_of_step hs hr
  · exact (h r run hrun).happens_all hchain
  · intro err herr
    cases herr

theorem OwnFailures.infer (h : s.OwnFailures) (reading : Reading) (request : InferRequest) :
    (s.infer o reading request).2.OwnFailures := by
  intro r run hr
  obtain heq | ⟨w, -, heq⟩ := infer_cases (o := o) s reading request
  · rw [heq, runs_refreshWorkerReadiness] at hr
    exact h r run hr
  · rw [heq, openRun, runs_setWorker, runs_refreshWorkerReadiness, List.getElem?_append] at hr
    split at hr
    · exact h r run hr
    · intro err herr
      rw [List.getElem?_singleton] at hr
      split at hr
      · obtain rfl := Option.some.inj hr
        cases herr
      · cases hr

theorem OwnFailures.cancel (h : s.OwnFailures) (r : ℕ) : (s.cancel o r).OwnFailures := by
  intro k run hk
  rw [WorkerPool.cancel, runs_failInFlight, List.getElem?_modify] at hk
  obtain ⟨run₀, hrun, heq⟩ := Option.map_eq_some_iff.mp hk
  split at heq
  · rw [← heq]
    exact (h k run₀ hrun).failInFlight (by rintro ⟨⟩)
  · exact heq ▸ h k run₀ hrun

end WorkerPool

namespace Server

variable {o : Options} {s s' : Server} {a : ServerAction} {ttl : ℤ} {p : ℕ}

theorem ownFailures_served (h : s.pool.OwnFailures) (hs : Served o s a s') :
    s'.pool.OwnFailures := by
  cases hs with
  | moved => exact h
  | answered => exact h
  | awaited hdrained hawait =>
      obtain ⟨-, -, hpool, -⟩ := await_cases hawait
      rw [hpool]
      exact h
  | called => exact h.infer _ _
  | resumed => exact h
  | @parted c caller hc hconnected =>
      unfold abort
      split
      · exact h
      · exact h.cancel _
  | pooled hstep => exact h.step hstep

/-- The execution has been refused a run. -/
def Refused (s : Server) (p : ℕ) : Prop :=
  ∃ request, s.launches.get? p = some ⟨request, .refused⟩

/-- Only a launch without a worker is refused. -/
theorem refused_of_served (hok : s.findsWorker p a) (hs : Served o s a s') (h : s'.Refused p) :
    s.Refused p := by
  obtain ⟨request, hl⟩ := h
  cases hs with
  | moved => exact ⟨request, hl⟩
  | answered => exact ⟨request, hl⟩
  | awaited hdrained hawait =>
      obtain hl | ⟨-, heq⟩ := launch_await hawait hl
      · exact ⟨request, hl⟩
      · cases heq
  | @called q reading request' registry hq hgoes hrunning =>
      simp only [launch, OrderedMap.get?_set] at hl
      split at hl
      · rename_i hqp
        have havailable := hok hqp
        cases hinfer : (s.pool.infer o reading request').1 with
        | none => exact absurd havailable ((WorkerPool.refused_iff request').mp hinfer)
        | some r =>
            rw [hinfer] at hl
            cases hl
      · exact ⟨request, hl⟩
  | resumed => exact ⟨request, hl⟩
  | @parted c caller hc hconnected =>
      unfold abort at hl
      split at hl
      · exact ⟨request, hl⟩
      · exact ⟨request, hl⟩
  | pooled => exact ⟨request, hl⟩

/-- A launch without a worker is refused. -/
theorem refused_of_callExecute {reading : Reading} (hnone : ¬ ∃ w, s.pool.Available reading w)
    (hs : serverStep o s (.callExecute p reading) = some s') : s'.Refused p := by
  unfold serverStep at hs
  split at hs
  · cases hs
  · dsimp only [callExecute] at hs
    split at hs
    · rename_i request hl
      obtain ⟨registry, -, rfl⟩ := Option.map_eq_some_iff.mp hs
      refine ⟨request, ?_⟩
      simp only [launch, OrderedMap.get?_set_self, (WorkerPool.refused_iff request).mpr hnone]
    · cases hs

/-- What is refused stays refused. -/
theorem Refused.exec {bs : List ServerAction} (h : s.Refused p) (hlinked : s.Linked ttl)
    (hrun : Machine.exec (serverStep o) s bs = some s') : s'.Refused p := by
  have hboth : s'.Linked ttl ∧ s'.Refused p := by
    refine Machine.exec_invariant (P := fun t => t.Linked ttl ∧ t.Refused p) ⟨hlinked, h⟩ ?_ hrun
    rintro t a t' ⟨hlinked, request, hl⟩ hs
    have hserved := served_of_step hs
    exact ⟨hlinked.served hserved, request, (hlinked.grown hserved).launch hl (by simp)⟩
  exact hboth.2

/-- The two routes classify a failure alike exactly when a worker was available as its run was asked
for. -/
theorem failures_classified_alike_iff {file : Option JsString} {now : ℤ} {as : List ServerAction}
    {err : WorkerPoolError} (hrun : Machine.exec (serverStep o) (init o ttl file now) as = some s)
    (hfail : s.answer p = some (.rejected err)) (request : InferRequest) (replay : Bool) :
    ClassifiedAlike request replay err ↔
      Machine.Guarded (serverStep o) (findsWorker p) (init o ttl file now) as := by
  have hlinked : ∀ pre t, Machine.exec (serverStep o) (init o ttl file now) pre = some t →
      t.Linked ttl := by
    intro pre t ht
    exact Machine.exec_invariant (linked_init o ttl file now)
      (fun _ _ _ h hs => h.served (served_of_step hs)) ht
  rw [Replies.classifiedAlike_iff]
  constructor
  · intro hcode pre a hpre t ht
    by_contra hnot
    cases a with
    | callExecute q reading =>
        rw [findsWorker, Classical.not_imp] at hnot
        obtain ⟨rfl, hnone⟩ := hnot
        obtain ⟨rest, rfl⟩ := hpre
        rw [Machine.exec_append, Machine.exec_snoc, ht, Option.bind_some] at hrun
        obtain ⟨t', ht', hrest⟩ := Option.bind_eq_some_iff.mp hrun
        have hrefused := refused_of_callExecute hnone ht'
        have hafter := (hlinked pre t ht).served (served_of_step ht')
        obtain ⟨request', hl⟩ := hrefused.exec hafter hrest
        have hanswer := answer_eq_some.mpr (.inl ⟨request', hl, rfl⟩)
        rw [hfail] at hanswer
        cases hanswer
        exact hcode rfl
    | _ => exact hnot trivial
  · intro hguard
    obtain ⟨request', hl, -⟩ | ⟨r, run, -, hr, hout⟩ := answer_eq_some.mp hfail
    · have hnone : ¬ s.Refused p := by
        refine hguard.invariant (P := fun t => ¬ t.Refused p) ?_ ?_ hrun
        · rintro ⟨request, hl⟩
          simp [init] at hl
        · intro t a t' hnot hok hs hrefused
          exact hnot (refused_of_served hok (served_of_step hs) hrefused)
      exact absurd ⟨request', hl⟩ hnone
    · have hown : s.pool.OwnFailures := by
        refine Machine.exec_invariant (P := fun t => t.pool.OwnFailures) ?_ ?_ hrun
        · intro r run hr
          simp [init, WorkerPool.new] at hr
        · exact fun _ _ _ h hs => ownFailures_served h (served_of_step hs)
      exact hown r run hr err hout

def buffered : InferRequest := ⟨Json.units "a", Json.units "hi", [], false⟩

/-- A request whose worker is reported dead. -/
def crashedRequest : List ServerAction :=
  [.post 0 buffered 1, .callExecute 0 ⟨100, fun _ => true⟩,
    .pool (.supervisor 120 (.workerCrashed 0 []))]

theorem failures_classified_alike_crashed : ∃ s,
    Machine.exec (serverStep WorkerPool.twoWorkers) (init WorkerPool.twoWorkers 20 none 0)
        crashedRequest = some s ∧
      s.answer 0 = some (.rejected (WorkerPool.crashError 0 (Json.units "a"))) ∧
      (ClassifiedAlike buffered false (WorkerPool.crashError 0 (Json.units "a")) ↔
        Machine.Guarded (serverStep WorkerPool.twoWorkers) (findsWorker 0)
          (init WorkerPool.twoWorkers 20 none 0) crashedRequest) := by
  have hrun : (Machine.exec (serverStep WorkerPool.twoWorkers) (init WorkerPool.twoWorkers 20 none 0)
      crashedRequest).any (fun s =>
        s.answer 0 = some (.rejected (WorkerPool.crashError 0 (Json.units "a")))) = true := by
    decide
  obtain ⟨s, hs, hanswer⟩ := (Option.any_eq_true _ _).mp hrun
  have hfail := of_decide_eq_true hanswer
  exact ⟨s, hs, hfail, failures_classified_alike_iff hs hfail buffered false⟩

/-- A stream that finds no worker. -/
def strandedStream : List ServerAction :=
  [.stream 0 { buffered with stream := true } 1, .callExecute 0 ⟨100, fun _ => false⟩]

theorem not_failures_classified_alike : ¬ ∀ (o : Options) (ttl : ℤ) (file : Option JsString)
    (now : ℤ) (as : List ServerAction) (s : Server) (p : ℕ) (err : WorkerPoolError)
    (request : InferRequest) (replay : Bool),
    Machine.exec (serverStep o) (init o ttl file now) as = some s →
      s.answer p = some (.rejected err) → ClassifiedAlike request replay err := by
  intro hall
  have hrun : (Machine.exec (serverStep WorkerPool.twoWorkers) (init WorkerPool.twoWorkers 20 none 0)
      strandedStream).any (fun s =>
        s.answer 0 = some (.rejected WorkerPool.noReadyWorkers)) = true := by
    decide
  obtain ⟨s, hs, hanswer⟩ := (Option.any_eq_true _ _).mp hrun
  exact Replies.not_classifiedAlike rfl
    (hall _ 20 none 0 _ s 0 _ buffered false hs (of_decide_eq_true hanswer))

end Server

end ServeInfer.ApiServer
