import ServeInfer.Scheduler.History

/-!
# Bounded overtaking

Ageing adds one point for every `agingMs` a job has waited. So a job that came
earlier by its whole priority deficit, measured in `agingMs`, stands before every
later one, and the stable sort never starts the later one first.
-/

namespace ServeInfer.Scheduler

variable {α : Type} {o : Options} {clock : ℕ → ℤ}

/-- The points by which the later job's base priority exceeds the earlier one's. -/
def deficit (a b : Job) : ℤ := max 0 (basePriority b.priority - basePriority a.priority)

/-- An earlier job that has waited out its deficit is at least as urgent at every instant. -/
theorem effectivePriority_le (hage : 0 < o.agingMs) {a b : Job} (now : ℤ)
    (hwait : (deficit a b : ℚ) * o.agingMs ≤ (b.createdAt - a.createdAt : ℤ)) :
    effectivePriority o b now ≤ effectivePriority o a now := by
  have hbase : basePriority b.priority ≤ basePriority a.priority + deficit a b := by
    have := le_max_right 0 (basePriority b.priority - basePriority a.priority)
    unfold deficit
    omega
  have hage' : ((now - b.createdAt : ℤ) : ℚ) / o.agingMs + (deficit a b : ℚ) ≤
      ((now - a.createdAt : ℤ) : ℚ) / o.agingMs := by
    calc ((now - b.createdAt : ℤ) : ℚ) / o.agingMs + (deficit a b : ℚ)
        = (((now - b.createdAt : ℤ) : ℚ) + deficit a b * o.agingMs) / o.agingMs := by
          field_simp
      _ ≤ ((now - a.createdAt : ℤ) : ℚ) / o.agingMs := by
          apply div_le_div_of_nonneg_right _ hage.le
          push_cast at hwait ⊢
          linarith
  have hfloor : ⌊((now - b.createdAt : ℤ) : ℚ) / o.agingMs⌋ + deficit a b ≤
      ⌊((now - a.createdAt : ℤ) : ℚ) / o.agingMs⌋ := by
    rw [← Int.floor_add_intCast]
    exact Int.floor_le_floor hage'
  unfold effectivePriority
  dsimp only
  omega

/-- The comparator lets an earlier job that has waited out its deficit stand first. -/
theorem compareJobs_le (hage : 0 < o.agingMs) {a b : Job} (now : ℤ)
    (hcreated : a.createdAt ≤ b.createdAt)
    (hwait : (deficit a b : ℚ) * o.agingMs ≤ (b.createdAt - a.createdAt : ℤ)) :
    compareJobs o now a b ≤ 0 := by
  have h := effectivePriority_le hage now hwait
  simp only [compareJobs]
  split
  · omega
  · omega

/-- What a start owes the jobs still queued: none that may run, came earlier and has waited out
its deficit is passed. -/
def FairPick (o : Options) (b : Job) (before : Tables) : Prop :=
  ∀ a ∈ before.queue, (before.perMfeActive.get? a.mfeId).getD 0 < o.maxPerMfe → a.id < b.id →
    a.createdAt ≤ b.createdAt ∧ ¬ (deficit a b : ℚ) * o.agingMs ≤ (b.createdAt - a.createdAt : ℤ)

/-- Creation times follow the clock, and every start so far was fair. -/
structure Fair (o : Options) (clock : ℕ → ℤ) (s : State α) : Prop where
  past : ∀ job ∈ s.jobs, job.createdAt ≤ clock s.reads
  aged : ∀ a ∈ s.jobs, ∀ b ∈ s.jobs, a.id < b.id → a.createdAt ≤ b.createdAt
  fair : ∀ p ∈ picks s.trace, FairPick o p.1 p.2

namespace Fair

variable {s t : State α}

/-- A move that creates no job and starts none. -/
theorem of_move (hclock : Monotone clock) (h : Fair o clock s)
    (hjobs : t.jobs = s.jobs) (hreads : s.reads ≤ t.reads) (hpicks : picks t.trace = picks s.trace) :
    Fair o clock t where
  past := by
    intro job hj
    rw [hjobs] at hj
    exact (h.past job hj).trans (hclock hreads)
  aged := by rw [hjobs]; exact h.aged
  fair := by rw [hpicks]; exact h.fair

theorem accept (hclock : Monotone clock) (hs : Shape s) (h : Fair o clock s) (req : Request) :
    Fair o clock (accept o clock s req) := by
  refine ⟨?_, ?_, ?_⟩
  · rw [accept_eq]
    intro job hj
    rcases List.mem_append.mp hj with ho | hn
    · exact (h.past job ho).trans (hclock (Nat.le_add_right _ _))
    · rw [List.mem_singleton] at hn
      subst hn
      exact hclock (Nat.le_add_right _ _)
  · rw [accept_eq]
    intro a ha b hb hlt
    rcases List.mem_append.mp ha with ha | ha
    · rcases List.mem_append.mp hb with hb | hb
      · exact h.aged a ha b hb hlt
      · rw [List.mem_singleton] at hb
        subst hb
        exact h.past a ha
    · rw [List.mem_singleton] at ha
      subst ha
      have hb' : b.id ≤ s.jobs.length := by
        rcases List.mem_append.mp hb with hb | hb
        · exact (hs.id_lt hb).le
        · rw [List.mem_singleton] at hb
          exact (congrArg Job.id hb).le
      exact absurd hlt (Nat.not_lt.mpr hb')
  · rw [accept_eq]
    simpa using h.fair

/-- The picked job heads the stable sort, so no earlier candidate may stand before it. -/
theorem fairPick (hage : 0 < o.agingMs) (hs : Shape s) (h : Fair o clock s) {now : ℤ} {job : Job}
    (hslot : s.active.size < o.maxSlots) (hpick : pickNextJob o now s.toTables = some job) :
    FairPick o job s.toTables := by
  intro a ha hcap hlt
  have hjob := pickNextJob_spec hpick
  have hcand : a ∈ s.queue.filter (canRun o s.toTables) := by
    refine List.mem_filter.mpr ⟨ha, ?_⟩
    simp [canRun, Nat.not_le.mpr hslot, hcap]
  have hjobc : job ∈ s.queue.filter (canRun o s.toTables) := List.mem_filter.mpr hjob
  have hsorted := hs.ordered.sublist (List.filter_sublist (p := canRun o s.toTables))
  have hcreated : a.createdAt ≤ job.createdAt :=
    h.aged a (hs.queued a ha) job (hs.queued job hjob.1) hlt
  refine ⟨hcreated, ?_⟩
  intro hwait
  apply StableSort.not_rel_of_head (hs.queue_nodup.filter _) hpick
    (StableSort.pair_sublist_of_lt hsorted hcand hjobc hlt)
  exact compareJobs_le hage now hcreated hwait

theorem start (hclock : Monotone clock) (hage : 0 < o.agingMs) (hs : Shape s)
    (h : Fair o clock s) {job : Job}
    (hslot : s.active.size < o.maxSlots)
    (hpick : pickNextJob o (clock s.reads) s.toTables = some job) :
    Fair o clock (startPicked clock s.tick job) := by
  have hfair := h.fairPick hage hs hslot hpick
  refine ⟨?_, ?_, ?_⟩
  · rw [startPicked_eq]
    intro item hi
    exact (h.past item hi).trans (hclock (by simp [State.tick]; omega))
  · rw [startPicked_eq]
    exact h.aged
  · rw [startPicked_eq]
    intro p hp
    simp only [picks_append, picks_cons_picked, picks_notified, List.mem_append,
      List.mem_singleton] at hp
    rcases hp with hp | rfl
    · exact h.fair p hp
    · exact hfair

/-- No move makes an unfair start. -/
theorem kept (hclock : Monotone clock) (hage : 0 < o.agingMs) :
    KeptUnder o clock Shape (Fair o clock (α := α)) where
  stay _ h := h
  tick _ h := h.of_move hclock rfl (Nat.le_succ _) rfl
  start _ hs h hslot hpick := h.start hclock hage hs hslot hpick
  accept req hs h _ := h.accept hclock hs req
  disarm _ _ _ h _ _ _ _ := h.of_move hclock rfl le_rfl rfl
  expire id job _ h _ _ _ _ := by
    apply h.of_move hclock
    all_goals simp [expireQueued_eq, clearQueueTimer, State.setCell]
  cancelQueued _ job _ h _ := by
    apply h.of_move hclock
    all_goals simp [cancelQueued_eq]
  abort _ _ _ h _ := h.of_move hclock rfl le_rfl rfl
  timeOut k r _ h _ _ _ _ := by
    apply h.of_move hclock
    all_goals simp [timeOut_eq]
  timeOutFree k r _ h _ _ _ _ := by
    apply h.of_move hclock
    · simp [timeOut_eq, freeSlot_eq]
    · simp only [timeOut_eq, freeSlot_eq]
      omega
    · simp [timeOut_eq, freeSlot_eq]
  call _ _ _ h _ _ := by
    apply h.of_move hclock
    all_goals simp [State.log, State.setRun]
  settle _ _ _ _ h _ _ := h.of_move hclock rfl le_rfl rfl
  react k r result _ h _ _ ht := by
    apply h.of_move hclock
    all_goals simp [react_eq o clock ht]
  reactLate _ _ _ _ h _ _ _ := h.of_move hclock rfl le_rfl rfl
  finish _ _ _ h _ _ _ := h.of_move hclock rfl le_rfl rfl
  finishFree k r _ h _ _ _ := by
    apply h.of_move hclock
    all_goals simp [freeSlot_eq, State.setRun]

theorem start_of_run : Fair o clock (init o : State α) where
  past := by intro job h; simp [init] at h
  aged := by intro a h; simp [init] at h
  fair := by intro p h; simp [init] at h

end Fair

/-- No job is started while an earlier one that may run has waited out its priority deficit;
so equal priorities start in arrival order and a low job is never passed by work that came
`200 * agingMs` later. -/
theorem bounded_overtaking (hage : 0 < o.agingMs) (hclock : Monotone clock)
    {as : List (Action α)} {s : State α} (h : exec o clock as = some s) {b : Job}
    {before : Tables} (hpick : Event.picked b before ∈ s.trace) {a : Job}
    (hqueued : a ∈ before.queue)
    (hcap : (before.perMfeActive.get? a.mfeId).getD 0 < o.maxPerMfe) (hlater : a.id < b.id) :
    ¬ ((max 0 (basePriority b.priority - basePriority a.priority) : ℤ) : ℚ) * o.agingMs ≤
        (b.createdAt - a.createdAt : ℤ) ∧
      a.priority ≠ b.priority ∧
      (a.priority = .low → ¬ 200 * o.agingMs ≤ (b.createdAt - a.createdAt : ℤ)) := by
  have hfair : Fair o clock s :=
    (Fair.kept hclock hage).runUnder (Shape.kept o clock) (Shape.start_of_run o)
      Fair.start_of_run h
  obtain ⟨hcreated, hpass⟩ :=
    hfair.fair (b, before) (mem_picks.mpr hpick) a hqueued hcap hlater
  refine ⟨hpass, ?_, ?_⟩
  · intro hprio
    apply hpass
    have hzero : deficit a b = 0 := by simp [deficit, hprio]
    rw [hzero, Int.cast_zero, zero_mul]
    exact_mod_cast sub_nonneg.mpr hcreated
  · intro hlow hwait
    apply hpass
    have hmost : deficit a b ≤ 200 := by
      cases hb : b.priority <;> simp [deficit, basePriority, hlow, hb]
    have hmost' : (deficit a b : ℚ) ≤ 200 := by exact_mod_cast hmost
    calc (deficit a b : ℚ) * o.agingMs ≤ 200 * o.agingMs :=
          mul_le_mul_of_nonneg_right hmost' hage.le
      _ ≤ (b.createdAt - a.createdAt : ℤ) := hwait

/-- A run in which a high job, enqueued at once after a low one, is rightly started before it. -/
def highPassesLow : List (Action ℕ) :=
  [.enqueue { requestId := "c", mfeId := "m" },
    .enqueue { requestId := "a", mfeId := "m", priority := "low" },
    .enqueue { requestId := "b", mfeId := "m", priority := "high" },
    .callExecute 0, .settleExecute 0 (.ok 7), .react 0, .finalize 0]

theorem bounded_overtaking_highPassesLow :
    ¬ ((max 0 (300 - 100) : ℤ) : ℚ) * 15000 ≤ (0 - 0 : ℤ) ∧ Priority.low ≠ Priority.high ∧
      (Priority.low = .low → ¬ (200 : ℚ) * 15000 ≤ (0 - 0 : ℤ)) := by
  let low : Job := ⟨1, "a", "m", .low, true, 0⟩
  let high : Job := ⟨2, "b", "m", .high, true, 0⟩
  have hpick : Event.picked high { queue := [low, high] } ∈
      ((exec { maxSlots := 1 } (fun _ => 0) highPassesLow).get (by decide)).trace := by
    decide +kernel
  have hqueued : low ∈ ({ queue := [low, high] } : Tables).queue := by simp
  exact bounded_overtaking (by norm_num) monotone_const (Option.some_get _).symm hpick hqueued
    (by decide) (by decide)

end ServeInfer.Scheduler
