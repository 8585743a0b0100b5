import ServeInfer.Scheduler.LifeCycle

/-!
# Whose job a handle cancels

The handle of an `enqueue` holds a request id, and `cancel` takes the first job of that
id that it finds. The call stays with the handle's own job exactly when that is the job
found.
-/

namespace ServeInfer.Scheduler

variable {α : Type} {o : Options} {clock : ℕ → ℤ} {s : State α} {job hit : Job}

/-- No job but this one is taken off the queue or out of `active`, settled or aborted. -/
structure TouchesOnly (job : Job) (s t : State α) : Prop where
  queue : ∀ other, other ≠ job → (other ∈ t.queue ↔ other ∈ s.queue)
  active : t.active = s.active
  settled : ∀ id, id ≠ job.id → settlements id t.trace = settlements id s.trace
  aborted : ∀ id, id ≠ job.id → (t.cells id).aborted = (s.cells id).aborted

/-- No queued or active job is changed. -/
structure Unchanged (s t : State α) : Prop where
  queue : t.queue = s.queue
  active : t.active = s.active
  cells : t.cells = s.cells

/-- The call from `s` to `t` kept to its own job. -/
def CancelsOwn (job : Job) (s t : State α) : Prop :=
  TouchesOnly job s t ∧ (s.isSettled job → Unchanged s t)

/-- The first queued job of the id is this one, or none is; then the active one is aborted
already or is this one. What is found has not settled. -/
structure FindsOwn (s : State α) (job : Job) : Prop where
  queued : ∀ hit, s.queue.find? (fun item => item.requestId = job.requestId) = some hit →
    hit = job ∧ ¬ s.isSettled job
  active : s.queue.find? (fun item => item.requestId = job.requestId) = none →
    ∀ hit, s.active.get? job.requestId = some hit →
      (s.cells hit.id).aborted = true ∨ hit = job ∧ ¬ s.isSettled job

namespace Unchanged

theorem refl (s : State α) : Unchanged s s := ⟨rfl, rfl, rfl⟩

/-- An aborted job is aborted once more. -/
theorem abort (h : (s.cells hit.id).aborted = true) : Unchanged s (abort s hit) where
  queue := rfl
  active := rfl
  cells := by
    show Function.update s.cells hit.id { s.cells hit.id with aborted := true } = s.cells
    rw [← h]
    exact Function.update_eq_self _ _

end Unchanged

namespace TouchesOnly

theorem refl (job : Job) (s : State α) : TouchesOnly job s s :=
  ⟨fun _ _ => Iff.rfl, rfl, fun _ _ => rfl, fun _ _ => rfl⟩

theorem cancelQueued (hs : Shape s)
    (hf : s.queue.find? (fun item => item.requestId = job.requestId) = some job) :
    TouchesOnly job s (cancelQueued o clock s job) := by
  rw [cancelQueued_eq]
  constructor
  · intro other hother
    rw [mem_unqueue hs.queue_nodup hf]
    exact and_iff_right hother
  · rfl
  · intro id hid
    simp [Ne.symm hid]
  · intro id hid
    dsimp only
    rw [Function.update_of_ne hid]

theorem abort (job : Job) (s : State α) : TouchesOnly job s (abort s job) where
  queue _ _ := Iff.rfl
  active := rfl
  settled _ _ := rfl
  aborted id hid := by
    show (Function.update s.cells job.id _ id).aborted = _
    rw [Function.update_of_ne hid]

end TouchesOnly

/-- A job that `cancel` finds in the queue is rejected. -/
theorem settlements_cancelQueued (s : State α) (hit : Job) :
    settlements hit.id (cancelQueued o clock s hit).trace = settlements hit.id s.trace + 1 := by
  rw [cancelQueued_eq]
  simp

/-- A job that `cancel` finds in the queue is taken off it. -/
theorem queue_cancelQueued_ne (hf : hit ∈ s.queue) :
    (cancelQueued o clock s hit).queue ≠ s.queue := by
  rw [cancelQueued_eq]
  intro hsame
  have hlength := congrArg List.length hsame
  dsimp only at hlength
  rw [unqueue, List.length_eraseP_of_mem hf (by simp)] at hlength
  have hpos := List.length_pos_of_mem hf
  omega

/-- A job that was not aborted is changed by an abort. -/
theorem aborted_abort (s : State α) (hit : Job) : ((abort s hit).cells hit.id).aborted = true := by
  show (Function.update s.cells hit.id _ hit.id).aborted = true
  rw [Function.update_self]

/-- A call of a handle keeps to the handle's job exactly where its request id leads to it. -/
theorem cancelsOwn_iff (hs : Shape s) (hjob : job ∈ s.jobs) :
    CancelsOwn job s (cancel o clock s job.requestId).1 ↔ FindsOwn s job := by
  unfold cancel
  cases hqueued : s.queue.find? (fun item => item.requestId = job.requestId) with
  | some hit =>
      have hmem := List.mem_of_find?_eq_some hqueued
      dsimp only
      constructor
      · rintro ⟨honly, hsettled⟩
        refine ⟨?_, fun hnone => by rw [hqueued] at hnone; cases hnone⟩
        intro hit' hhit'
        obtain rfl := Option.some.inj (hqueued.symm.trans hhit')
        constructor
        · by_contra hne
          have hid : hit.id ≠ job.id := fun heq =>
            hne (hs.eq_of_id_eq (hs.queued hit hmem) hjob heq)
          have hcount := honly.settled hit.id hid
          rw [settlements_cancelQueued] at hcount
          omega
        · intro hset
          exact queue_cancelQueued_ne hmem (hsettled hset).queue
      · intro hown
        obtain ⟨rfl, hset⟩ := hown.queued hit hqueued
        exact ⟨TouchesOnly.cancelQueued hs hqueued, fun h => absurd h hset⟩
  | none =>
      dsimp only
      cases hactive : s.active.get? job.requestId with
      | some hit =>
          dsimp only
          constructor
          · rintro ⟨honly, hsettled⟩
            refine ⟨fun hit' hhit' => (by rw [hqueued] at hhit'; cases hhit'), ?_⟩
            intro _ hit' hhit'
            obtain rfl := Option.some.inj (hactive.symm.trans hhit')
            by_cases heq : hit = job
            · subst heq
              by_cases hset : s.isSettled hit
              · have hcell := congrFun (hsettled hset).cells hit.id
                refine Or.inl ?_
                rw [← hcell]
                exact aborted_abort s hit
              · exact Or.inr ⟨rfl, hset⟩
            · have hid : hit.id ≠ job.id := fun hid =>
                heq (hs.eq_of_id_eq (hs.activated _ hit hactive) hjob hid)
              refine Or.inl ?_
              rw [← honly.aborted hit.id hid]
              exact aborted_abort s hit
          · intro hown
            obtain haborted | ⟨rfl, hset⟩ := hown.active hqueued hit hactive
            · have hsame := Unchanged.abort haborted
              refine ⟨⟨fun _ _ => Iff.rfl, rfl, fun _ _ => rfl, ?_⟩, fun _ => hsame⟩
              intro id _
              rw [hsame.cells]
            · exact ⟨TouchesOnly.abort hit s, fun h => absurd h hset⟩
      | none =>
          have hown : FindsOwn s job := by
            constructor
            · intro hit hhit
              rw [hqueued] at hhit
              cases hhit
            · intro _ hit hhit
              rw [hactive] at hhit
              cases hhit
          dsimp only
          cases s.done.get? job.requestId with
          | some entry => exact iff_of_true ⟨.refl job s, fun _ => .refl s⟩ hown
          | none => exact iff_of_true ⟨.refl job s, fun _ => .refl s⟩ hown

/-- In every state of a run the handle of a job cancels no other job, and none once its own has
settled, exactly when its request id leads to its own unsettled job or to no job that an abort
would change. -/
theorem handle_cancels_own_iff {as : List (Action α)} {s : State α}
    (h : exec o clock as = some s) (job : Job) (hjob : job ∈ s.jobs) :
    CancelsOwn job s (cancel o clock s job.requestId).1 ↔ FindsOwn s job :=
  cancelsOwn_iff (shape_of_exec h) hjob

theorem handle_cancels_own_iff_runsTooLong :
    ∃ s : State ℕ, exec {} (fun _ => 0) runsTooLong = some s ∧
      CancelsOwn ⟨0, "x", "m", .normal, true, 0⟩ s (cancel {} (fun _ => 0) s "x").1 := by
  have hrun : ((exec {} (fun _ => 0) runsTooLong : Option (State ℕ)).map fun s =>
      (s.jobs, s.queue, s.active.get? "x")) =
      some ([⟨0, "x", "m", .normal, true, 0⟩], [], none) := by
    decide +kernel
  obtain ⟨s, hs, hfacts⟩ := Option.map_eq_some_iff.mp hrun
  simp only [Prod.mk.injEq] at hfacts
  obtain ⟨hjobs, hqueue, hactive⟩ := hfacts
  refine ⟨s, hs, ?_⟩
  apply (handle_cancels_own_iff hs ⟨0, "x", "m", .normal, true, 0⟩
    (by rw [hjobs]; exact List.mem_singleton_self _)).mpr
  constructor
  · intro hit hhit
    rw [hqueue] at hhit
    cases hhit
  · intro _ hit hhit
    rw [hactive] at hhit
    cases hhit

/-- A job settles, and its id is used again. -/
def retriedId : List (Action ℕ) :=
  [.enqueue { requestId := "x", mfeId := "m" }, .callExecute 0, .settleExecute 0 (.ok 7),
    .react 0, .finalize 0, .enqueue { requestId := "x", mfeId := "m" }]

/-- The handle of the settled job aborts the one that came after it, although no two live jobs
ever shared an id. -/
theorem retry_aborted :
    ¬ ∀ (o : Options) (clock : ℕ → ℤ) (as : List (Action ℕ)) (s : State ℕ),
      Machine.Guarded (step o clock) NotReused (init o) as → exec o clock as = some s →
      ∀ job ∈ s.jobs, CancelsOwn job s (cancel o clock s job.requestId).1 := by
  intro hall
  have hguarded : Machine.Guarded (step {} fun _ => 0) NotReused (init {}) retriedId := by
    decide
  have hrun : (exec {} (fun _ => 0) retriedId).map (fun s =>
      (s.jobs, s.queue, s.active.get? "x", (s.cells 1).aborted)) =
      some ([⟨0, "x", "m", .normal, true, 0⟩, ⟨1, "x", "m", .normal, true, 0⟩], [],
        some ⟨1, "x", "m", .normal, true, 0⟩, false) := by
    decide +kernel
  obtain ⟨s, hs, hfacts⟩ := Option.map_eq_some_iff.mp hrun
  simp only [Prod.mk.injEq] at hfacts
  obtain ⟨hjobs, hqueue, hactive, haborted⟩ := hfacts
  have hjob : (⟨0, "x", "m", .normal, true, 0⟩ : Job) ∈ s.jobs := by
    rw [hjobs]
    exact List.mem_cons_self
  have howns := hall _ _ _ s hguarded hs _ hjob
  have hcancel : (cancel {} (fun _ => 0) s "x").1 = abort s ⟨1, "x", "m", .normal, true, 0⟩ := by
    unfold cancel
    rw [hqueue, hactive]
    rfl
  dsimp only at howns
  rw [hcancel] at howns
  have hflag := howns.1.aborted 1 (by decide)
  rw [aborted_abort s ⟨1, "x", "m", .normal, true, 0⟩, haborted] at hflag
  cases hflag

end ServeInfer.Scheduler
