import ServeInfer.ApiServer.RunView

/-!
# Whom a crash notice fails

A notice that names no request fails all that is in flight on its worker. One that names a
request fails that one alone, and the worker it runs on is not looked at.
-/

namespace ServeInfer.ApiServer

namespace WorkerPool

variable {o : Options} {s s' : WorkerPool} {w : ℤ} {r : ℕ} {id : JsString} {e : InFlight}

/-- The loop of `_markWorkerCrashed` over the requests it concerns. -/
def failAll (o : Options) (w : ℤ) (l : List (JsString × InFlight)) (s : WorkerPool) : WorkerPool :=
  l.foldl (fun s e => s.failInFlight o e.2.run (crashError w e.1)) s

theorem failAll_cons (w : ℤ) (x : JsString × InFlight) (l : List (JsString × InFlight))
    (s : WorkerPool) : failAll o w (x :: l) s =
      failAll o w l (s.failInFlight o x.2.run (crashError w x.1)) := rfl

/-- A report from the supervisor crashes the worker, fails its requests and rearms its probe. -/
theorem markWorkerCrashed_eq {entry : WorkerEntry} (he : s.workers.get? w = some entry)
    (requestId : JsString) : s.markWorkerCrashed o w requestId =
      let failed := failAll o w (s.affected w requestId)
        (s.setWorker w fun e => { e with status := .crashed })
      ((failed.clearTimeout ((failed.workers.get? w).bind WorkerEntry.recoveryTimer)).setWorker w
        fun e => { e with recoveryAttempt := 0 }).scheduleRecoveryProbe o w := by
  have haffected : (s.setWorker w fun e => { e with status := .crashed }).affected w requestId =
      s.affected w requestId := by
    simp only [affected, inFlight_setWorker]
  simp only [markWorkerCrashed, he, haffected, failAll]

/-- Failing requests leaves the entries in order. -/
theorem Entered.failAll (h : s.Entered) (w : ℤ) (l : List (JsString × InFlight)) :
    (failAll o w l s).Entered := by
  induction l generalizing s with
  | nil => exact h
  | cons x l ih =>
      rw [failAll_cons]
      exact ih (h.moves (h.moves_failInFlight x.2.run _))

theorem Entered.setWorker (h : s.Entered) (w : ℤ) (f : WorkerEntry → WorkerEntry) :
    (s.setWorker w f).Entered := by
  refine h.of_eq (inFlight_setWorker s w f) ?_ fun v hv => ?_
  · rw [cores, runs_setWorker, cores]
  · rw [status, Option.isSome_map] at hv ⊢
    rw [get?_setWorker]
    split
    · rename_i heq
      rw [Option.isSome_map, heq]
      exact hv
    · exact hv

theorem Entered.markWorkerCrashed (h : s.Entered) (w : ℤ) (requestId : JsString) :
    (s.markWorkerCrashed o w requestId).Entered := by
  cases he : s.workers.get? w with
  | none =>
      have hsame : s.markWorkerCrashed o w requestId = s := by
        simp only [WorkerPool.markWorkerCrashed, he]
      rw [hsame]
      exact h
  | some entry =>
      rw [markWorkerCrashed_eq he]
      have hfailed := (h.setWorker w fun e => { e with status := .crashed }).failAll (o := o) w
        (s.affected w requestId)
      exact hfailed.moves (moves_quiet (quiet_tail _ w _))

/-- Every step keeps the entries, whatever request a crash notice names. -/
theorem Entered.step {a : PoolAction} (h : s.Entered) (hs : poolStep o s a = some s') :
    s'.Entered := by
  by_cases hcrash : ∃ now w requestId, a = .supervisor now (.workerCrashed w requestId)
  · obtain ⟨now, w, requestId, rfl⟩ := hcrash
    obtain rfl := crashed_of_step hs
    exact h.markWorkerCrashed w requestId
  · exact h.moves (h.moves_step (fun now w requestId heq => hcrash ⟨now, w, requestId, heq⟩) hs)

/-- The entries are in order after every run of the pool. -/
theorem entered_of_exec {now : ℤ} {as : List PoolAction}
    (hrun : Machine.exec (poolStep o) (WorkerPool.new o now) as = some s) : s.Entered :=
  Machine.exec_invariant (booked_new o now).entered (fun _ _ _ h hs => h.step hs) hrun

/-- A request in flight has a run that can be failed. -/
theorem Entered.exists_open (h : s.Entered) (he : s.inFlight.get? id = some e) :
    ∃ c, s.Open e.run c ∧ c.workerId = e.workerId ∧ c.requestId = id := by
  obtain ⟨c, hc, hworker, hid, hdone⟩ := h.entry he
  exact ⟨c, h.isOpen hc hdone, hworker, hid⟩

theorem Entered.run_inj {id' : JsString} {e' : InFlight} (h : s.Entered)
    (he : s.inFlight.get? id = some e) (he' : s.inFlight.get? id' = some e') (hne : id ≠ id') :
    e.run ≠ e'.run := by
  obtain ⟨c, hc, -, hid, -⟩ := h.entry he'
  exact h.run_ne hc (hid ▸ hne) he

/-- Failing requests in flight on crashed workers settles their runs, takes them out of flight and
frees nobody. -/
theorem Entered.failAll_spec {l : List (JsString × InFlight)} (h : s.Entered) (w : ℤ)
    (hin : ∀ x ∈ l, s.inFlight.get? x.1 = some x.2) (hnodup : (l.map Prod.fst).Nodup)
    (hcrashed : ∀ x ∈ l, s.status x.2.workerId = some .crashed) :
    (WorkerPool.failAll o w l s).status = s.status ∧
      (WorkerPool.failAll o w l s).inFlight = l.foldl (fun m x => m.delete x.1) s.inFlight ∧
      ∀ x ∈ l, (WorkerPool.failAll o w l s).runs[x.2.run]? =
        s.runs[x.2.run]?.map fun run => run.failInFlight (crashError w x.1) := by
  induction l generalizing s with
  | nil => exact ⟨rfl, rfl, by simp⟩
  | cons x l ih =>
      rw [List.forall_mem_cons] at hin hcrashed
      rw [List.map_cons, List.nodup_cons] at hnodup
      obtain ⟨c, hopen, hworker, hid⟩ := h.exists_open hin.1
      have hended := hopen.failInFlight (o := o) (crashError w x.1)
      have hruns := runs_failInFlight (o := o) s x.2.run (crashError w x.1)
      have hother : ∀ y ∈ l, x.1 ≠ y.1 := by
        rintro y hy heq
        exact hnodup.1 (heq ▸ List.mem_map_of_mem hy)
      have hrun : ∀ y ∈ l, y.2.run ≠ x.2.run := by
        intro y hy
        exact h.run_inj (hin.2 y hy) hin.1 (hother y hy).symm
      have hstatus : (s.failInFlight o x.2.run (crashError w x.1)).status = s.status := by
        have hreleased : abandoned (s.status c.workerId) (crashError w x.1).code = .crashed := by
          rw [hworker, hcrashed.1]
          rfl
        rw [hended.status, hreleased, hworker, ← hcrashed.1, Function.update_eq_self]
      have hinFlight := hended.inFlight
      rw [hid] at hinFlight
      obtain ⟨ihstatus, ihinFlight, ihruns⟩ := ih
        (h.moves (h.moves_failInFlight x.2.run (crashError w x.1)))
        (by
          intro y hy
          rw [hinFlight, OrderedMap.get?_delete, if_neg (hother y hy)]
          exact hin.2 y hy)
        hnodup.2
        (by
          intro y hy
          rw [hstatus]
          exact hcrashed.2 y hy)
      rw [failAll_cons]
      refine ⟨ihstatus.trans hstatus, ?_, ?_⟩
      · rw [ihinFlight, hinFlight, List.foldl_cons]
      · rw [List.forall_mem_cons]
        constructor
        · rw [WorkerPool.failAll, runs_crashes l _ hrun, hruns, List.getElem?_modify_eq]
          rfl
        · intro y hy
          rw [ihruns y hy, hruns, List.getElem?_modify_ne _ _ (hrun y hy).symm]

theorem get?_foldl_delete (l : List (JsString × InFlight)) (m : OrderedMap JsString InFlight)
    (id : JsString) : (l.foldl (fun m x => m.delete x.1) m).get? id =
      if id ∈ l.map Prod.fst then none else m.get? id := by
  induction l generalizing m with
  | nil => rfl
  | cons x l ih =>
      rw [List.foldl_cons, ih, OrderedMap.get?_delete, List.map_cons]
      by_cases hid : id ∈ l.map Prod.fst
      · simp [hid]
      · by_cases hx : x.1 = id
        · simp [hx]
        · simp [hid, hx, Ne.symm hx]

/-- What the notice concerns is in flight, each request once. -/
theorem affected_spec (s : WorkerPool) (w : ℤ) (requestId : JsString) :
    (∀ x ∈ s.affected w requestId, s.inFlight.get? x.1 = some x.2) ∧
      ((s.affected w requestId).map Prod.fst).Nodup := by
  have hworker : (∀ x ∈ s.inFlight.entries.filter fun e => e.2.workerId = w,
      s.inFlight.get? x.1 = some x.2) ∧
        ((s.inFlight.entries.filter fun e => e.2.workerId = w).map Prod.fst).Nodup :=
    ⟨fun x hx => OrderedMap.get?_eq_some_iff.mpr (List.mem_of_mem_filter hx),
      s.inFlight.nodup.sublist (List.filter_sublist.map Prod.fst)⟩
  unfold affected
  split
  · rename_i hget
    refine ⟨?_, List.nodup_singleton _⟩
    intro x hx
    rw [List.mem_singleton.mp hx]
    exact hget
  · exact hworker

theorem runs_tail (s : WorkerPool) (w : ℤ) (timer : Option ℕ) :
    (((s.clearTimeout timer).setWorker w fun e =>
      { e with recoveryAttempt := 0 }).scheduleRecoveryProbe o w).runs = s.runs := by
  rw [runs_scheduleRecoveryProbe, runs_setWorker, runs_clearTimeout]

/-- A notice that concerns requests of its own worker only: they are settled and out of flight, the
worker is crashed, and nothing else has changed. -/
theorem Entered.crash_spec {entry : WorkerEntry} {requestId : JsString} (h : s.Entered)
    (he : s.workers.get? w = some entry)
    (hown : ∀ x ∈ s.affected w requestId, x.2.workerId = w) :
    (s.markWorkerCrashed o w requestId).status = Function.update s.status w (some .crashed) ∧
      (s.markWorkerCrashed o w requestId).inFlight =
        (s.affected w requestId).foldl (fun m x => m.delete x.1) s.inFlight ∧
      (∀ x ∈ s.affected w requestId, (s.markWorkerCrashed o w requestId).runs[x.2.run]? =
        s.runs[x.2.run]?.map fun run => run.failInFlight (crashError w x.1)) ∧
      ∀ k, (∀ x ∈ s.affected w requestId, x.2.run ≠ k) →
        (s.markWorkerCrashed o w requestId).runs[k]? = s.runs[k]? := by
  obtain ⟨hin, hnodup⟩ := affected_spec s w requestId
  have hset : (s.setWorker w fun e => { e with status := .crashed }).status =
      Function.update s.status w (some .crashed) :=
    status_setWorker (Option.isSome_of_eq_some (status_of_get? he)) fun _ _ => rfl
  obtain ⟨hstatus, hinFlight, hruns⟩ :=
    (h.setWorker w fun e => { e with status := .crashed }).failAll_spec (o := o) w
      (l := s.affected w requestId) (by rwa [inFlight_setWorker]) hnodup (by
        intro x hx
        rw [hset, hown x hx, Function.update_self])
  rw [inFlight_setWorker] at hinFlight
  rw [runs_setWorker] at hruns
  rw [markWorkerCrashed_eq he]
  dsimp only
  have hquiet := quiet_tail (o := o)
    (WorkerPool.failAll o w (s.affected w requestId)
      (s.setWorker w fun e => { e with status := .crashed })) w
  refine ⟨?_, ?_, ?_, ?_⟩
  · rw [(hquiet _).status, hstatus, hset]
  · rw [(hquiet _).inFlight, hinFlight]
  · rw [runs_tail]
    exact hruns
  · intro k hk
    rw [runs_tail, WorkerPool.failAll, runs_crashes _ _ hk, runs_setWorker]

/-- The request has been failed as one whose worker crashed. -/
def FailedBy (s : WorkerPool) (w : ℤ) (id : JsString) (e : InFlight) : Prop :=
  ∃ run, s.runs[e.run]? = some run ∧ run.outcome = some (.rejected (crashError w id))

/-- From the one state to the other the requests in flight on the worker have been failed, no other
request has, and the other workers have kept their statuses and their requests. -/
structure Targeted (s s' : WorkerPool) (w : ℤ) : Prop where
  failed : ∀ id e, s.inFlight.get? id = some e → (s'.FailedBy w id e ↔ e.workerId = w)
  inFlight : ∀ id e, e.workerId ≠ w → (s'.inFlight.get? id = some e ↔ s.inFlight.get? id = some e)
  status : ∀ w', w' ≠ w → s'.status w' = s.status w'

/-- A request that the notice names and that is in flight runs on its worker, which has no other. -/
def NamesOwn (s : WorkerPool) (w : ℤ) (requestId : JsString) : Prop :=
  (s.status w).isSome → requestId ≠ [] → ∀ e, s.inFlight.get? requestId = some e →
    e.workerId = w ∧ ∀ id e', s.inFlight.get? id = some e' → e'.workerId = w → id = requestId

/-- A request in flight is not settled yet. -/
theorem Entered.waiting (h : s.Entered) (hkept : s.RunsKept) (he : s.inFlight.get? id = some e) :
    ∃ run, s.runs[e.run]? = some run ∧ run.Kept ∧ run.done = false ∧ run.outcome = none := by
  obtain ⟨c, hc, -, -, hdone⟩ := h.entry he
  rw [getElem?_cores] at hc
  obtain ⟨run, hr, rfl⟩ := Option.map_eq_some_iff.mp hc
  have hkept := hkept _ _ hr
  refine ⟨run, hr, hkept, hdone, ?_⟩
  rw [← Option.not_isSome_iff_eq_none, ← hkept.settled]
  exact Bool.eq_false_iff.mp hdone

theorem not_failedBy (h : s.Entered) (hkept : s.RunsKept) (he : s.inFlight.get? id = some e)
    (hr : s'.runs[e.run]? = s.runs[e.run]?) : ¬ s'.FailedBy w id e := by
  obtain ⟨run, hrun, -, -, hnone⟩ := h.waiting hkept he
  rintro ⟨run', hrun', hout⟩
  rw [hr, hrun] at hrun'
  obtain rfl := Option.some.inj hrun'
  rw [hnone] at hout
  cases hout

theorem failedBy_of_runs (h : s.Entered) (hkept : s.RunsKept) (he : s.inFlight.get? id = some e)
    (hr : s'.runs[e.run]? = s.runs[e.run]?.map fun run => run.failInFlight (crashError w id)) :
    s'.FailedBy w id e := by
  obtain ⟨run, hrun, -, hdone, hnone⟩ := h.waiting hkept he
  rw [hrun] at hr
  refine ⟨_, hr, ?_⟩
  cases hstream : run.stream <;> cases hdestroyed : run.destroyed <;>
    simp [Run.failInFlight, Run.finalizeError, Run.finish, Run.settle, Run.destroy, hstream, hdone,
      hnone, hdestroyed]

/-- What the notice concerns, where it names no request or one that is the worker's only one. -/
theorem NamesOwn.mem_affected {requestId : JsString} (h : s.NamesOwn w requestId)
    (hw : (s.status w).isSome) :
    ∀ id e, (id, e) ∈ s.affected w requestId ↔ s.inFlight.get? id = some e ∧ e.workerId = w := by
  intro id e
  have hworker : (id, e) ∈ s.inFlight.entries.filter (fun e => e.2.workerId = w) ↔
      s.inFlight.get? id = some e ∧ e.workerId = w := by
    rw [List.mem_filter, OrderedMap.get?_eq_some_iff, decide_eq_true_eq]
  unfold affected
  split
  · rename_i entry hnamed hget
    obtain ⟨hown, honly⟩ := h hw (by rintro rfl; cases hnamed) entry hget
    rw [List.mem_singleton, Prod.mk.injEq]
    constructor
    · rintro ⟨rfl, rfl⟩
      exact ⟨hget, hown⟩
    · rintro ⟨he, hew⟩
      obtain rfl := honly id e he hew
      exact ⟨rfl, Option.some.inj (he.symm.trans hget)⟩
  · exact hworker

theorem Entered.targeted (h : s.Entered) (hkept : s.RunsKept) {requestId : JsString}
    (hnames : s.NamesOwn w requestId) :
    Targeted s (s.markWorkerCrashed o w requestId) w := by
  cases hget : s.workers.get? w with
  | none =>
      have hsame : s.markWorkerCrashed o w requestId = s := by
        simp only [WorkerPool.markWorkerCrashed, hget]
      rw [hsame]
      refine ⟨fun id e he => ?_, fun _ _ _ => Iff.rfl, fun _ _ => rfl⟩
      refine iff_of_false (not_failedBy h hkept he rfl) ?_
      rintro rfl
      obtain ⟨c, hopen, hworker, -⟩ := h.exists_open he
      have hpresent := hopen.present
      rw [hworker, status_of_none hget] at hpresent
      cases hpresent
  | some entry =>
      have hmem := hnames.mem_affected (Option.isSome_of_eq_some (status_of_get? hget))
      obtain ⟨hstatus, hinFlight, hruns, hothers⟩ := h.crash_spec (o := o) hget
        fun x hx => ((hmem x.1 x.2).mp hx).2
      constructor
      · intro id e he
        constructor
        · intro hfailed
          by_contra hne
          refine not_failedBy h hkept he (hothers e.run ?_) hfailed
          intro x hx
          obtain ⟨hx, hxw⟩ := (hmem x.1 x.2).mp hx
          apply h.run_inj hx he
          rintro rfl
          obtain rfl := Option.some.inj (he.symm.trans hx)
          exact hne hxw
        · intro hew
          exact failedBy_of_runs h hkept he (hruns (id, e) ((hmem id e).mpr ⟨he, hew⟩))
      · intro id e hne
        rw [hinFlight, get?_foldl_delete]
        split
        · rename_i hin
          obtain ⟨x, hx, rfl⟩ := List.mem_map.mp hin
          obtain ⟨hx, hxw⟩ := (hmem x.1 x.2).mp hx
          refine iff_of_false (by simp) fun he => hne ?_
          obtain rfl := Option.some.inj (he.symm.trans hx)
          exact hxw
        · rfl
      · intro w' hw'
        rw [hstatus, Function.update_of_ne hw']

/-- From the one state to the other the named request has been failed and taken out of flight, and
no other request has; the workers keep their statuses, but for the reported one and the request's. -/
structure SingledOut (s s' : WorkerPool) (w : ℤ) (requestId : JsString) (named : InFlight) :
    Prop where
  failed : ∀ id e, s.inFlight.get? id = some e → (s'.FailedBy w id e ↔ id = requestId)
  inFlight : s'.inFlight = s.inFlight.delete requestId
  status : ∀ w', w' ≠ w → w' ≠ named.workerId → s'.status w' = s.status w'

section Named

variable {requestId : JsString} (h : s.Entered) (hkept : s.RunsKept) (hw : (s.status w).isSome)
  (hne : requestId ≠ []) (he : s.inFlight.get? requestId = some e)

/-- A notice concerns the request in flight that it names. -/
theorem affected_named (hne : requestId ≠ []) (he : s.inFlight.get? requestId = some e) :
    s.affected w requestId = [(requestId, e)] := by
  have hnamed : requestId.isEmpty = false := by
    cases requestId with
    | nil => exact absurd rfl hne
    | cons c rest => rfl
  rw [affected, hnamed, he]

include hw hne he

theorem runs_named : (s.markWorkerCrashed o w requestId).runs =
    s.runs.modify e.run fun run => run.failInFlight (crashError w requestId) := by
  obtain ⟨entry, hget, -⟩ := Option.map_eq_some_iff.mp (Option.eq_some_of_isSome hw)
  rw [markWorkerCrashed_eq hget]
  dsimp only
  rw [runs_tail, affected_named hne he, failAll_cons, WorkerPool.failAll, List.foldl_nil,
    runs_failInFlight, runs_setWorker]

include h hkept

/-- The named request is failed, on whatever worker it runs, and no other request is. -/
theorem Entered.failed_named {id : JsString} {e' : InFlight}
    (he' : s.inFlight.get? id = some e') :
    (s.markWorkerCrashed o w requestId).FailedBy w id e' ↔ id = requestId := by
  have hruns := runs_named (o := o) hw hne he
  constructor
  · intro hfailed
    by_contra hid
    refine not_failedBy h hkept he' ?_ hfailed
    rw [hruns, List.getElem?_modify_ne _ _ (h.run_inj he he' (Ne.symm hid))]
  · rintro rfl
    obtain rfl := Option.some.inj (he.symm.trans he')
    refine failedBy_of_runs h hkept he ?_
    rw [hruns, List.getElem?_modify_eq]
    rfl

/-- A notice that names a request in flight fails it and nothing else. -/
theorem Entered.singledOut : SingledOut s (s.markWorkerCrashed o w requestId) w requestId e := by
  obtain ⟨entry, hget, -⟩ := Option.map_eq_some_iff.mp (Option.eq_some_of_isSome hw)
  have hcrashed : (s.setWorker w fun e => { e with status := .crashed }).Entered :=
    h.setWorker w fun e => { e with status := .crashed }
  have hset : (s.setWorker w fun e => { e with status := .crashed }).status =
      Function.update s.status w (some .crashed) :=
    status_setWorker hw fun _ _ => rfl
  have hin : (s.setWorker w fun e => { e with status := .crashed }).inFlight.get? requestId =
      some e := by
    rw [inFlight_setWorker, he]
  obtain ⟨c, hopen, hworker, hid⟩ := hcrashed.exists_open hin
  have hended := hopen.failInFlight (o := o) (crashError w requestId)
  have hfailed : WorkerPool.failAll o w (s.affected w requestId)
      (s.setWorker w fun e => { e with status := .crashed }) =
        (s.setWorker w fun e => { e with status := .crashed }).failInFlight o e.run
          (crashError w requestId) := by
    rw [affected_named hne he, failAll_cons, WorkerPool.failAll, List.foldl_nil]
  have hquiet := quiet_tail (o := o) ((s.setWorker w fun e =>
    { e with status := .crashed }).failInFlight o e.run (crashError w requestId)) w
  constructor
  · intro id e' he'
    exact h.failed_named hkept hw hne he he'
  · rw [markWorkerCrashed_eq hget]
    dsimp only
    rw [hfailed, (hquiet _).inFlight, hended.inFlight, hid, inFlight_setWorker]
  · intro w' hw' hother
    rw [markWorkerCrashed_eq hget]
    dsimp only
    rw [hfailed, (hquiet _).status, hended.status, hworker, Function.update_of_ne hother,
      hset, Function.update_of_ne hw']

end Named

/-- A notice that fails what is in flight on its worker names no other worker's request, nor one of
several. -/
theorem Entered.namesOwn (h : s.Entered) (hkept : s.RunsKept) {requestId : JsString}
    (htargeted : Targeted s (s.markWorkerCrashed o w requestId) w) : s.NamesOwn w requestId := by
  intro hw hne e he
  have hnamed := h.singledOut (o := o) hkept hw hne he
  constructor
  · exact (htargeted.failed requestId e he).mp ((hnamed.failed requestId e he).mpr rfl)
  · intro id e' he' hew
    exact (hnamed.failed id e' he').mp ((htargeted.failed id e' he').mpr hew)

/-- In every state of the pool, whatever notices led there, a crash notice fails exactly what is in
flight on its worker unless it names a request that is not the only one of that worker; a request
in flight that it names is all that it fails. -/
theorem crash_notice_targeted_iff {now : ℤ} {as : List PoolAction}
    (hrun : Machine.exec (poolStep o) (.new o now) as = some s) (now' w : ℤ)
    (requestId : JsString) :
    (Targeted s (s.handleSupervisorMessage o now' (.workerCrashed w requestId)) w ↔
      s.NamesOwn w requestId) ∧
    ((s.status w).isSome → requestId ≠ [] → ∀ e, s.inFlight.get? requestId = some e →
      SingledOut s (s.handleSupervisorMessage o now' (.workerCrashed w requestId)) w requestId e) := by
  have h := entered_of_exec hrun
  have hkept := runsKept_of_exec hrun
  exact ⟨⟨h.namesOwn hkept, h.targeted hkept⟩, fun hw hne _ he => h.singledOut hkept hw hne he⟩

/-- One request on each of the two workers. -/
def bothInFlight : List PoolAction :=
  [.infer ⟨100, fun _ => true⟩ ⟨Json.units "a", Json.units "hi", [], false⟩, .connect 0,
    .infer ⟨110, fun _ => true⟩ ⟨Json.units "b", Json.units "hi", [], true⟩, .connect 1]

theorem crash_notice_targeted_bothInFlight :
    ∃ s, Machine.exec (poolStep twoWorkers) (.new twoWorkers 0) bothInFlight = some s ∧
      Targeted s (s.handleSupervisorMessage twoWorkers 120 (.workerCrashed 0 [])) 0 := by
  have hsome : (Machine.exec (poolStep twoWorkers) (.new twoWorkers 0) bothInFlight).isSome := by
    decide
  obtain ⟨s, hs⟩ := Option.isSome_iff_exists.mp hsome
  refine ⟨s, hs, (crash_notice_targeted_iff hs 120 0 []).1.mpr ?_⟩
  exact fun _ hne => absurd rfl hne

/-- Worker 0 is reported dead under the name of the request on worker 1: that one fails, and
worker 1 is free for the next while it is at work still. -/
theorem foreign_notice_not_targeted :
    ¬ ∀ (o : Options) (now : ℤ) (as : List PoolAction) (s : WorkerPool) (now' w : ℤ)
      (requestId : JsString), Machine.exec (poolStep o) (.new o now) as = some s →
      Targeted s (s.handleSupervisorMessage o now' (.workerCrashed w requestId)) w := by
  intro hall
  have hrun : (Machine.exec (poolStep twoWorkers) (.new twoWorkers 0) bothInFlight).map (fun s =>
      (s.status 1, (s.handleSupervisorMessage twoWorkers 120
        (.workerCrashed 0 (Json.units "b"))).status 1)) = some (some .busy, some .ready) := by
    decide
  obtain ⟨s, hs, hstatus⟩ := Option.map_eq_some_iff.mp hrun
  rw [Prod.mk.injEq] at hstatus
  have hkept := (hall _ _ _ s 120 0 (Json.units "b") hs).status 1 (by decide)
  rw [hstatus.1, hstatus.2] at hkept
  cases hkept

end WorkerPool

end ServeInfer.ApiServer
