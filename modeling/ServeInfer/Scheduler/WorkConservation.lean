import ServeInfer.Scheduler.LateSettlement

/-!
# Work conservation

While a slot is free, a job stays in the queue only for the limit of its own MFE. Every
step either adds nothing to the queue and frees no slot, or ends with the rounds of
`_schedule`, which stop only where no slot is free or no queued job may run.
-/

namespace ServeInfer.Scheduler

variable {α : Type} {o : Options} {clock : ℕ → ℤ} {s s' : State α}

/-- A slot is free only while every queued job's MFE has used up its own. -/
def Conserving (o : Options) (t : Tables) : Prop :=
  t.active.size < o.maxSlots →
    ∀ job ∈ t.queue, o.maxPerMfe ≤ (t.perMfeActive.get? job.mfeId).getD 0

/-- Nothing is added to the queue and no slot is taken or given back. -/
structure Quiet (s t : Tables) : Prop where
  queue : t.queue ⊆ s.queue
  active : t.active = s.active
  perMfeActive : t.perMfeActive = s.perMfeActive

theorem Quiet.of_eq {s t : Tables} (h : t = s) : Quiet s t := by
  subst h
  exact ⟨List.Subset.refl _, rfl, rfl⟩

theorem Quiet.conserving {s t : Tables} (h : Quiet s t) (hs : Conserving o s) : Conserving o t := by
  intro hfree job hjob
  rw [h.active] at hfree
  rw [h.perMfeActive]
  exact hs hfree job (h.queue hjob)

/-- No job is picked where none may run. -/
theorem conserving_of_pick_none {now : ℤ} {t : Tables} (h : pickNextJob o now t = none) :
    Conserving o t := by
  intro hfree job hjob
  have hnone : sortJobs o now (t.queue.filter (canRun o t)) = [] := List.head?_eq_none_iff.mp h
  have hperm : (sortJobs o now (t.queue.filter (canRun o t))).Perm _ := List.perm_insertionSort _ _
  rw [hnone] at hperm
  have hblocked := List.filter_eq_nil_iff.mp hperm.nil_eq.symm job hjob
  simpa [canRun, Nat.not_le.mpr hfree] using hblocked

/-- The rounds end before the fuel does. -/
theorem conserving_scheduleLoop (fuel : ℕ) (s : State α) (hfuel : s.queue.length < fuel) :
    Conserving o (scheduleLoop o clock fuel s).toTables := by
  induction fuel generalizing s with
  | zero => exact absurd hfuel (Nat.not_lt_zero _)
  | succ fuel ih =>
      unfold scheduleLoop
      split
      · split
        · rename_i hnone
          exact conserving_of_pick_none hnone
        · rename_i job hpick
          apply ih
          have hshort : (startPicked clock s.tick job).queue.length < s.queue.length :=
            length_queue_start (pickNextJob_spec hpick).1
          omega
      · rename_i hfull
        exact fun hfree => absurd hfree hfull

theorem conserving_schedule (s : State α) : Conserving o (schedule o clock s).toTables :=
  conserving_scheduleLoop _ s (Nat.lt_succ_self _)

/-- A slot is given back once, and then the queue is looked at. -/
theorem releaseSlot_cases (o : Options) (clock : ℕ → ℤ) (s : State α) (k : ℕ) :
    releaseSlot o clock s k = s ∨ ∃ t, releaseSlot o clock s k = schedule o clock t := by
  unfold releaseSlot
  split
  · exact Or.inl rfl
  · split
    · exact Or.inl rfl
    · exact Or.inr ⟨_, rfl⟩

theorem quiet_expireQueued (s : State α) (job : Job) :
    Quiet s.toTables (expireQueued o clock s job).toTables := by
  rw [expireQueued_eq]
  exact ⟨(unqueue_sublist _ _).subset, rfl, rfl⟩

theorem quiet_cancel (s : State α) (requestId : String) :
    Quiet s.toTables (cancel o clock s requestId).1.toTables := by
  unfold cancel
  split
  · rw [cancelQueued_eq]
    exact ⟨(unqueue_sublist _ _).subset, rfl, rfl⟩
  · split
    · exact Quiet.of_eq rfl
    · split <;> exact Quiet.of_eq rfl

theorem toTables_timeOut (s : State α) (k : ℕ) (r : Run α) :
    (timeOut o clock s k r).toTables = s.toTables := by
  rw [timeOut_eq]

theorem toTables_react (s : State α) (k : ℕ) (r : Run α) (result : Except (Thrown α) α) :
    (react o clock s k r result).toTables = s.toTables := by
  cases ht : (s.cells r.job.id).execTimedOut with
  | true => rw [react_eq_of_timedOut o clock ht, State.setRun]
  | false => rw [react_eq o clock ht]

/-- What a step does to the tables. -/
theorem quiet_or_schedule {a : Action α} (h : step o clock s a = some s') :
    Quiet s.toTables s'.toTables ∨ ∃ t, s' = schedule o clock t := by
  cases a with
  | enqueue req =>
      by_cases hfull : s.queue.length ≥ o.maxQueue
      · simp only [step, enqueue, if_pos hfull, Option.some.injEq] at h
        exact Or.inl (Quiet.of_eq (by rw [h]))
      · simp only [step, enqueue, if_neg hfull, Option.some.injEq] at h
        exact Or.inr ⟨_, h.symm⟩
  | cancel requestId =>
      simp only [step, Option.some.injEq] at h
      exact Or.inl (h ▸ quiet_cancel s requestId)
  | queueTimer id =>
      simp only [step] at h
      split at h
      · split at h
        · simp only [Option.some.injEq, queueTimer] at h
          subst h
          split
          · exact Or.inl (quiet_expireQueued (clearQueueTimer s _) _)
          · exact Or.inl (Quiet.of_eq rfl)
        · cases h
      · cases h
  | execTimer k =>
      simp only [step] at h
      split at h
      · rename_i r _
        split at h
        · obtain rfl := Option.some.inj h
          obtain hsame | hsched := releaseSlot_cases o clock (timeOut o clock s k r) k
          · rw [hsame]
            exact Or.inl (Quiet.of_eq (toTables_timeOut s k r))
          · exact Or.inr hsched
        · cases h
      · cases h
  | callExecute k =>
      simp only [step] at h
      split at h
      · obtain rfl := Option.some.inj h
        exact Or.inl (Quiet.of_eq rfl)
      · cases h
  | settleExecute k result =>
      simp only [step] at h
      split at h
      · obtain rfl := Option.some.inj h
        exact Or.inl (Quiet.of_eq rfl)
      · cases h
  | react k =>
      simp only [step] at h
      split at h
      · split at h
        · obtain rfl := Option.some.inj h
          exact Or.inl (Quiet.of_eq (toTables_react s k _ _))
        · cases h
      · cases h
  | finalize k =>
      simp only [step] at h
      split at h
      · obtain rfl := Option.some.inj h
        obtain hsame | hsched :=
          releaseSlot_cases o clock (s.setRun k fun r => { r with stage := .finished }) k
        · rw [hsame]
          exact Or.inl (Quiet.of_eq rfl)
        · exact Or.inr hsched
      · cases h

theorem conserving_of_exec {as : List (Action α)} (h : exec o clock as = some s) :
    Conserving o s.toTables := by
  refine Machine.exec_invariant (P := fun t : State α => Conserving o t.toTables) ?_ ?_ h
  · intro _ job hjob
    cases hjob
  · intro t a t' ht hs
    obtain hquiet | ⟨u, rfl⟩ := quiet_or_schedule hs
    · exact hquiet.conserving ht
    · exact conserving_schedule u

/-- In every state of a run, a job is queued next to a free slot only where jobs of its MFE hold
`maxPerMfe` slots. -/
theorem work_conserving {as : List (Action α)} {s : State α} (h : exec o clock as = some s)
    (hfree : s.active.size < o.maxSlots) :
    ∀ job ∈ s.queue, (s.holders.countP fun holder => holder.mfeId = job.mfeId) = o.maxPerMfe := by
  intro job hjob
  have hcounted : Counted o s :=
    (Counted.kept o clock).run (Counted.start_of_run o) h
  have hfull := conserving_of_exec h hfree job hjob
  have hcounts := hcounted.counts job.mfeId
  have hcapped := hcounted.capped job.mfeId
  omega

/-- Three jobs of one MFE, which has two slots of the four. -/
def oneMfe : List (Action ℕ) :=
  [.enqueue { requestId := "x", mfeId := "a" }, .enqueue { requestId := "y", mfeId := "a" },
    .enqueue { requestId := "z", mfeId := "a" }]

theorem work_conserving_oneMfe :
    ∃ s : State ℕ, exec {} (fun _ => 0) oneMfe = some s ∧
      s.queue.map Job.requestId = ["z"] ∧
      ∀ job ∈ s.queue, (s.holders.countP fun holder => holder.mfeId = job.mfeId) = 2 := by
  have hrun : ((exec {} (fun _ => 0) oneMfe : Option (State ℕ)).map fun s =>
      (s.active.size, s.queue.map Job.requestId)) = some (2, ["z"]) := by
    decide
  obtain ⟨s, hs, hfacts⟩ := Option.map_eq_some_iff.mp hrun
  rw [Prod.mk.injEq] at hfacts
  obtain ⟨hactive, hqueue⟩ := hfacts
  exact ⟨s, hs, hqueue, work_conserving hs (by rw [hactive]; decide)⟩

end ServeInfer.Scheduler
