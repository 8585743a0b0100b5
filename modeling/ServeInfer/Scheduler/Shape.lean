import ServeInfer.Scheduler.Moves
import ServeInfer.Lib.StableSort

/-!
# Which jobs the scheduler's tables hold

Jobs are numbered in the order of their creation. The queue keeps that order,
and the queue and the `_run` calls hold created jobs only.
-/

namespace ServeInfer.Scheduler

variable {α : Type} {o : Options} {clock : ℕ → ℤ}

/-- The tables name created jobs, and the queue is in the order of creation. -/
structure Shape (s : State α) : Prop where
  index : ∀ (i : ℕ) (job : Job), s.jobs[i]? = some job → job.id = i
  queued : ∀ job ∈ s.queue, job ∈ s.jobs
  ordered : s.queue.Pairwise fun a b => a.id < b.id
  ran : ∀ job ∈ s.runs.map Run.job, job ∈ s.jobs
  activated : ∀ (id : String) (job : Job), s.active.get? id = some job → job ∈ s.jobs

@[simp] theorem map_job_modify {f : Run α → Run α} (hf : ∀ r, (f r).job = r.job) (runs : List (Run α))
    (k : ℕ) : (runs.modify k f).map Run.job = runs.map Run.job := by
  refine List.ext_getElem? fun i => ?_
  rw [List.getElem?_map, List.getElem?_map, List.getElem?_modify]
  cases runs[i]? with
  | none => rfl
  | some r => by_cases hk : k = i <;> simp [hk, hf]

@[simp] theorem map_job_clearedRuns (runs : List (Run α)) (handle : Option ℕ) :
    (clearedRuns runs handle).map Run.job = runs.map Run.job := by
  cases handle with
  | none => rfl
  | some k => simp [clearedRuns]

theorem unqueue_sublist (queue : List Job) (requestId : String) :
    List.Sublist (unqueue queue requestId) queue :=
  List.eraseP_sublist

/-- The job `_schedule` picks is queued and may run. -/
theorem pickNextJob_spec {now : ℤ} {t : Tables} {job : Job}
    (h : pickNextJob o now t = some job) : job ∈ t.queue ∧ canRun o t job = true := by
  have hmem : job ∈ t.queue.filter (canRun o t) := StableSort.mem_of_head h
  exact List.mem_filter.mp hmem

namespace Shape

variable {s t : State α}

theorem id_lt (h : Shape s) {job : Job} (hj : job ∈ s.jobs) : job.id < s.jobs.length := by
  obtain ⟨i, hi⟩ := List.mem_iff_getElem?.mp hj
  rw [h.index i job hi]
  exact (List.getElem?_eq_some_iff.mp hi).1

theorem getElem?_id (h : Shape s) {job : Job} (hj : job ∈ s.jobs) :
    s.jobs[job.id]? = some job := by
  obtain ⟨i, hi⟩ := List.mem_iff_getElem?.mp hj
  rw [h.index i job hi]
  exact hi

/-- A job is known by its number. -/
theorem eq_of_id_eq (h : Shape s) {a b : Job} (ha : a ∈ s.jobs) (hb : b ∈ s.jobs)
    (hab : a.id = b.id) : a = b := by
  have heq : some a = some b := by
    rw [← h.getElem?_id ha, ← h.getElem?_id hb, hab]
  exact Option.some.inj heq

theorem job_mem (h : Shape s) {k : ℕ} {r : Run α} (hr : s.runs[k]? = some r) : r.job ∈ s.jobs :=
  h.ran _ (List.mem_map.mpr ⟨r, List.mem_of_getElem? hr, rfl⟩)

theorem queue_nodup (h : Shape s) : s.queue.Nodup :=
  h.ordered.imp fun hlt heq => absurd (congrArg Job.id heq) (Nat.ne_of_lt hlt)

/-- A move that creates no job, starts none and at most shortens the queue. -/
theorem of_sublist (h : Shape s) (hjobs : t.jobs = s.jobs) (hq : List.Sublist t.queue s.queue)
    (hruns : t.runs.map Run.job = s.runs.map Run.job)
    (hactive : ∀ id job, t.active.get? id = some job → s.active.get? id = some job) : Shape t where
  index := by rw [hjobs]; exact h.index
  queued := fun job hj => by rw [hjobs]; exact h.queued job (hq.subset hj)
  ordered := h.ordered.sublist hq
  ran := by rw [hjobs, hruns]; exact h.ran
  activated := fun id job hg => by rw [hjobs]; exact h.activated id job (hactive id job hg)

theorem accept (h : Shape s) (req : Request) : Shape (accept o clock s req) := by
  rw [accept_eq]
  refine ⟨?_, ?_, ?_, ?_, ?_⟩
  · intro i job hi
    rcases Nat.lt_trichotomy i s.jobs.length with hlt | heq | hgt
    · rw [List.getElem?_append_left hlt] at hi
      exact h.index i job hi
    · subst heq
      simp only [List.getElem?_concat_length, Option.some.injEq] at hi
      rw [← hi]
      rfl
    · have hlen : (s.jobs ++ [newJob clock s req]).length ≤ i := by simp; omega
      rw [List.getElem?_eq_none hlen] at hi
      cases hi
  · intro job hj
    rcases List.mem_append.mp hj with hq | hn
    · exact List.mem_append_left _ (h.queued job hq)
    · exact List.mem_append_right _ hn
  · rw [List.pairwise_append]
    refine ⟨h.ordered, List.pairwise_singleton _ _, ?_⟩
    intro a ha b hb
    rw [List.mem_singleton] at hb
    subst hb
    exact h.id_lt (h.queued a ha)
  · intro job hj
    exact List.mem_append_left _ (h.ran job hj)
  · intro id job hg
    exact List.mem_append_left _ (h.activated id job hg)

theorem start (h : Shape s) {now : ℤ} {job : Job}
    (hpick : pickNextJob o now s.toTables = some job) : Shape (startPicked clock s.tick job) := by
  have hq : job ∈ s.queue := (pickNextJob_spec hpick).1
  rw [startPicked_eq]
  refine ⟨h.index, ?_, ?_, ?_, ?_⟩
  · intro item hi
    exact h.queued item ((unqueue_sublist _ _).subset hi)
  · exact h.ordered.sublist (unqueue_sublist _ _)
  · intro item hi
    rw [List.map_append, List.mem_append] at hi
    rcases hi with hr | hn
    · exact h.ran item hr
    · rw [List.map_singleton, List.mem_singleton] at hn
      rw [hn]
      exact h.queued job hq
  · intro id item hg
    simp only [State.tick, OrderedMap.get?_set] at hg
    split at hg
    · rw [Option.some.injEq] at hg
      exact hg ▸ h.queued job hq
    · exact h.activated id item hg

theorem free (h : Shape s) (k : ℕ) (r : Run α) : Shape (freeSlot clock s k r) := by
  rw [freeSlot_eq]
  refine h.of_sublist rfl (List.Sublist.refl _) (by simp) ?_
  intro id job hg
  rw [OrderedMap.get?_delete] at hg
  split at hg
  · cases hg
  · exact hg

theorem setRun (h : Shape s) (k : ℕ) {f : Run α → Run α} (hf : ∀ r, (f r).job = r.job) :
    Shape (s.setRun k f) :=
  h.of_sublist rfl (List.Sublist.refl _) (map_job_modify hf s.runs k) fun _ _ hg => hg

theorem disarmed (h : Shape s) (job : Job) : Shape (clearQueueTimer s job) :=
  h.of_sublist rfl (List.Sublist.refl _) rfl fun _ _ hg => hg

theorem expire (h : Shape s) (job : Job) : Shape (expireQueued o clock s job) := by
  rw [expireQueued_eq]
  exact h.of_sublist rfl (unqueue_sublist _ _) rfl fun _ _ hg => hg

theorem timedOut (h : Shape s) (k : ℕ) (r : Run α) : Shape (timeOut o clock s k r) := by
  rw [timeOut_eq]
  exact h.of_sublist rfl (List.Sublist.refl _) (by simp) fun _ _ hg => hg

variable (o clock) in
/-- No move breaks the shape. -/
theorem kept : Kept o clock (Shape (α := α)) where
  stay _ h := h
  tick _ h := h.of_sublist rfl (List.Sublist.refl _) rfl fun _ _ hg => hg
  start _ _ h _ hpick := h.start hpick
  accept req _ h _ := h.accept req
  disarm _ job _ h _ _ _ _ := h.disarmed job
  expire _ job _ h _ _ _ _ := (h.disarmed job).expire job
  cancelQueued _ job _ h _ := by
    rw [cancelQueued_eq]
    exact h.of_sublist rfl (unqueue_sublist _ _) (map_job_clearedRuns _ _) fun _ _ hg => hg
  abort _ _ _ h _ := h.of_sublist rfl (List.Sublist.refl _) rfl fun _ _ hg => hg
  timeOut k r _ h _ _ _ _ := h.timedOut k r
  timeOutFree k r _ h _ _ _ _ := (h.timedOut k r).free k r
  call _ _ _ h _ _ :=
    h.of_sublist rfl (List.Sublist.refl _) (by simp [State.log, State.setRun]) fun _ _ hg => hg
  settle k _ _ _ h _ _ := h.setRun k fun _ => rfl
  react k r result _ h _ _ ht := by
    rw [react_eq o clock ht]
    exact h.of_sublist rfl (List.Sublist.refl _) (by simp) fun _ _ hg => hg
  reactLate k _ _ _ h _ _ _ := h.setRun k fun _ => rfl
  finish k _ _ h _ _ _ := h.setRun k fun _ => rfl
  finishFree k r _ h _ _ _ := (h.setRun k (by simp)).free k r

theorem start_of_run (o : Options) : Shape (init o : State α) where
  index := by intro i job h; simp [init] at h
  queued := by intro job h; simp [init] at h
  ordered := List.Pairwise.nil
  ran := by intro job h; simp [init] at h
  activated := by intro id job h; simp [init] at h

end Shape

/-- Every reachable state has the shape. -/
theorem shape_of_exec {as : List (Action α)} {s : State α} (h : exec o clock as = some s) :
    Shape s :=
  (Shape.kept o clock).run (Shape.start_of_run o) h

end ServeInfer.Scheduler
