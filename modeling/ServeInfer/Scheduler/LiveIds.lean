import ServeInfer.Scheduler.SlotCap

/-!
# Runs whose live ids are distinct

A caller that never enqueues an id while a job of that id is queued or active
keeps the ids of the two tables apart. Then every search by id finds the job it
is meant to find, and no start overwrites an entry of `active`.
-/

namespace ServeInfer.Scheduler

variable {α : Type} {o : Options} {clock : ℕ → ℤ}

/-- The action does not enqueue the id of a job that is still queued or active. -/
def NotReused (s : State α) : Action α → Prop
  | .enqueue req =>
      (∀ item ∈ s.queue, item.requestId ≠ req.requestId) ∧ s.active.get? req.requestId = none
  | _ => True

instance decidableNotReused : (s : State α) → (a : Action α) → Decidable (NotReused s a)
  | s, .enqueue req =>
      inferInstanceAs (Decidable ((∀ item ∈ s.queue, item.requestId ≠ req.requestId) ∧
        s.active.get? req.requestId = none))
  | _, .cancel _ => isTrue trivial
  | _, .queueTimer _ => isTrue trivial
  | _, .execTimer _ => isTrue trivial
  | _, .callExecute _ => isTrue trivial
  | _, .settleExecute _ _ => isTrue trivial
  | _, .react _ => isTrue trivial
  | _, .finalize _ => isTrue trivial

/-- The ids of queued jobs and the active ids never repeat. -/
structure DistinctIds (s : State α) : Prop where
  nodup : (s.queue.map Job.requestId ++ s.active.keys).Nodup
  fresh : ∀ p ∈ picks s.trace, ¬ Overwrites p
  distinct : ∀ p ∈ picks s.trace ++ expiries s.trace, (p.2.queue.map Job.requestId).Nodup

theorem map_unqueue (queue : List Job) (requestId : String) :
    (unqueue queue requestId).map Job.requestId =
      (queue.map Job.requestId).erase requestId := by
  induction queue with
  | nil => rfl
  | cons job queue ih =>
      unfold unqueue at ih ⊢
      rw [List.map_cons, List.erase_cons]
      by_cases heq : job.requestId = requestId
      · simp [heq]
      · simp [heq, ih]

namespace DistinctIds

variable {s t : State α}

/-- A move that adds no id to either table. -/
theorem of_sublist (h : DistinctIds s)
    (hq : List.Sublist (t.queue.map Job.requestId) (s.queue.map Job.requestId))
    (ha : List.Sublist t.active.keys s.active.keys) (hp : picks t.trace = picks s.trace)
    (he : expiries t.trace = expiries s.trace) : DistinctIds t where
  nodup := h.nodup.sublist (hq.append ha)
  fresh := by rw [hp]; exact h.fresh
  distinct := by rw [hp, he]; exact h.distinct

theorem queue_nodup (h : DistinctIds s) : (s.queue.map Job.requestId).Nodup :=
  (List.nodup_append.mp h.nodup).1

theorem get?_eq_none (h : DistinctIds s) {job : Job} (hj : job ∈ s.queue) :
    s.active.get? job.requestId = none := by
  rw [OrderedMap.get?_eq_none_iff]
  intro hmem
  have hdisj := (List.nodup_append.mp h.nodup).2.2
  exact hdisj _ (List.mem_map_of_mem hj) _ hmem rfl

theorem start (h : DistinctIds s) {job : Job} (hj : job ∈ s.queue) :
    DistinctIds (startPicked clock s.tick job) := by
  have hnone := h.get?_eq_none hj
  have hout := OrderedMap.get?_eq_none_iff.mp hnone
  have hin : job.requestId ∈ s.queue.map Job.requestId := List.mem_map_of_mem hj
  refine ⟨?_, ?_, ?_⟩
  · rw [startPicked_eq]
    simp only [State.tick]
    rw [map_unqueue, OrderedMap.keys_set_of_notMem _ hout]
    have hperm : (s.queue.map Job.requestId ++ s.active.keys).Perm
        ((s.queue.map Job.requestId).erase job.requestId ++
          (s.active.keys ++ [job.requestId])) := by
      calc s.queue.map Job.requestId ++ s.active.keys
          |>.Perm (job.requestId :: (s.queue.map Job.requestId).erase job.requestId ++
              s.active.keys) := (List.perm_cons_erase hin).append_right _
        _ |>.Perm ((s.queue.map Job.requestId).erase job.requestId ++
              (s.active.keys ++ [job.requestId])) := by
            rw [List.cons_append, ← List.append_assoc]
            exact (List.perm_append_singleton _ _).symm
    exact hperm.nodup_iff.mp h.nodup
  · rw [startPicked_eq]
    intro p hp
    simp only [picks_append, picks_cons_picked, picks_notified, List.mem_append,
      List.mem_singleton] at hp
    rcases hp with hold | rfl
    · exact h.fresh p hold
    · exact not_not.mpr hnone
  · intro p hp
    have hcases : p = (job, s.toTables) ∨ p ∈ picks s.trace ++ expiries s.trace := by
      simp [startPicked_eq, State.tick] at hp
      simp
      tauto
    rcases hcases with rfl | hold
    · exact h.queue_nodup
    · exact h.distinct p hold

theorem accept (h : DistinctIds s) {req : Request} (hreq : NotReused s (.enqueue req)) :
    DistinctIds (accept o clock s req) := by
  rw [accept_eq]
  refine ⟨?_, ?_, ?_⟩
  · have hnew : req.requestId ∉ s.queue.map Job.requestId ++ s.active.keys := by
      rw [List.mem_append, not_or]
      refine ⟨?_, OrderedMap.get?_eq_none_iff.mp hreq.2⟩
      intro hmem
      obtain ⟨item, hi, heq⟩ := List.mem_map.mp hmem
      exact hreq.1 item hi heq
    have hperm : (req.requestId :: (s.queue.map Job.requestId ++ s.active.keys)).Perm
        ((s.queue ++ [newJob clock s req]).map Job.requestId ++ s.active.keys) := by
      rw [List.map_append, List.append_assoc]
      exact List.perm_middle.symm
    exact hperm.nodup_iff.mp (List.nodup_cons.mpr ⟨hnew, h.nodup⟩)
  · simpa using h.fresh
  · simpa using h.distinct

theorem expire (h : DistinctIds s) (job : Job) :
    DistinctIds (expireQueued o clock (clearQueueTimer s job) job) := by
  rw [expireQueued_eq]
  refine ⟨?_, ?_, ?_⟩
  · exact h.nodup.sublist (((unqueue_sublist _ _).map _).append (List.Sublist.refl _))
  · simpa [clearQueueTimer, State.setCell] using h.fresh
  · intro p hp
    have hcases : p = (job, s.toTables) ∨ p ∈ picks s.trace ++ expiries s.trace := by
      simp [clearQueueTimer, State.setCell] at hp
      simp
      tauto
    rcases hcases with rfl | hold
    · exact h.queue_nodup
    · exact h.distinct p hold

theorem free (h : DistinctIds s) (k : ℕ) (r : Run α) : DistinctIds (freeSlot clock s k r) := by
  rw [freeSlot_eq]
  refine h.of_sublist (List.Sublist.refl _) ?_ rfl rfl
  rw [OrderedMap.keys_delete]
  exact List.erase_sublist

theorem timedOut (h : DistinctIds s) (k : ℕ) (r : Run α) :
    DistinctIds (timeOut o clock s k r) := by
  rw [timeOut_eq]
  exact h.of_sublist (List.Sublist.refl _) (List.Sublist.refl _) (by simp) (by simp)

theorem of_tables (h : DistinctIds s) (ht : t.toTables = s.toTables)
    (hp : picks t.trace = picks s.trace) (he : expiries t.trace = expiries s.trace) :
    DistinctIds t :=
  h.of_sublist (by rw [ht]) (by rw [ht]) hp he

variable (o clock) in
/-- A step that reuses no live id keeps the ids distinct. -/
theorem turn :
    Turn o clock (fun _ => True) (fun a s => DistinctIds (α := α) s ∧ NotReused s a)
      DistinctIds where
  stay _ h := h.1
  tick _ h := h.of_tables rfl rfl rfl
  start _ _ h _ hpick := h.start (pickNextJob_spec hpick).1
  accept _ _ h _ := h.1.accept h.2
  disarm _ _ _ h _ _ _ _ := h.1.of_tables rfl rfl rfl
  expire _ job _ h _ _ _ _ := h.1.expire job
  cancelQueued _ job _ h _ := by
    rw [cancelQueued_eq]
    exact h.1.of_sublist ((unqueue_sublist _ _).map _) (List.Sublist.refl _) (by simp) (by simp)
  abort _ _ _ h _ := h.1.of_tables rfl rfl rfl
  timeOut k r _ h _ _ _ _ := h.1.timedOut k r
  timeOutFree k r _ h _ _ _ _ := (h.1.timedOut k r).free k r
  call _ _ _ h _ _ := h.1.of_tables rfl (by simp [State.log, State.setRun])
    (by simp [State.log, State.setRun])
  settle _ _ _ _ h _ _ := h.1.of_tables rfl rfl rfl
  react k r result _ h _ _ ht := by
    rw [react_eq o clock ht]
    exact h.1.of_tables rfl (by simp) (by simp)
  reactLate _ _ _ _ h _ _ _ := h.1.of_tables rfl rfl rfl
  finish _ _ _ h _ _ _ := h.1.of_tables rfl rfl rfl
  finishFree k r _ h _ _ _ := by
    have hs : DistinctIds (State.setRun _ k fun r => { r with stage := .finished }) :=
      h.1.of_tables rfl rfl rfl
    exact hs.free k r

theorem start_of_run (o : Options) : DistinctIds (init o : State α) where
  nodup := List.nodup_nil
  fresh := by simp [init]
  distinct := by simp [init]

end DistinctIds

theorem distinctIds_of_notReused {as : List (Action α)} {s : State α}
    (hg : Machine.Guarded (step o clock) NotReused (init o) as)
    (h : exec o clock as = some s) : DistinctIds s :=
  hg.invariant (DistinctIds.start_of_run o)
    (fun _ _ _ ht hok hs => (DistinctIds.turn o clock).step kept_true trivial ⟨ht, hok⟩ hs) h

/-- A run that never reuses a live id keeps the slot cap. -/
theorem slotCap_of_notReused {as : List (Action α)} {s : State α}
    (hg : Machine.Guarded (step o clock) NotReused (init o) as)
    (h : exec o clock as = some s) :
    Machine.Always (step o clock) (SlotCap o) (init o) as := by
  rw [always_slotCap_iff h]
  rintro ⟨p, hp, hover⟩
  exact (distinctIds_of_notReused hg h).fresh p hp hover

end ServeInfer.Scheduler
