import ServeInfer.Scheduler.History

/-!
# The slot cap

The calls of `_run` that have not released their slot are compared with the two
maps that admission reads. The count per MFE is always right. The size of
`active` is right until a job is started whose id is still in the map.
-/

namespace ServeInfer.Scheduler

variable {α : Type} {o : Options} {clock : ℕ → ℤ}

/-- The jobs of the calls that have not released their slot. -/
def holdersOf (runs : List (Run α)) : List Job := (runs.filter fun r => !r.released).map Run.job

/-- The jobs started and not yet released, one entry for each start. -/
def State.holders (s : State α) : List Job := holdersOf s.runs

/-- Both caps hold, and the maps count what is started and not released. -/
def SlotCap (o : Options) (s : State α) : Prop :=
  s.holders.length ≤ o.maxSlots ∧
    s.holders.length = s.active.size ∧
    ∀ m, (s.holders.countP fun job => job.mfeId = m) ≤ o.maxPerMfe ∧
      (s.holders.countP fun job => job.mfeId = m) = (s.perMfeActive.get? m).getD 0

@[simp] theorem holdersOf_append (l m : List (Run α)) :
    holdersOf (l ++ m) = holdersOf l ++ holdersOf m := by
  simp [holdersOf]

@[simp] theorem holdersOf_newRun (now : ℤ) (job : Job) :
    holdersOf [(newRun now job : Run α)] = [job] := rfl

theorem holdersOf_modify {f : Run α → Run α} (hjob : ∀ r, (f r).job = r.job)
    (hrel : ∀ r, (f r).released = r.released) (runs : List (Run α)) (k : ℕ) :
    holdersOf (runs.modify k f) = holdersOf runs := by
  induction runs generalizing k with
  | nil => simp
  | cons r runs ih =>
      cases k with
      | zero => cases hr : r.released <;> simp [holdersOf, hjob, hrel, hr]
      | succ k =>
          have hrest := ih k
          simp only [holdersOf] at hrest ⊢
          cases hr : r.released <;> simp [hr, hrest]

@[simp] theorem holdersOf_clearedRuns (runs : List (Run α)) (handle : Option ℕ) :
    holdersOf (clearedRuns runs handle) = holdersOf runs := by
  cases handle with
  | none => rfl
  | some k => exact holdersOf_modify (by simp) (by simp) runs k

/-- Releasing a slot takes exactly that call's job out. -/
theorem holdersOf_release {runs : List (Run α)} {k : ℕ} {r : Run α} (hr : runs[k]? = some r)
    (hrel : r.released = false) :
    (holdersOf runs).Perm
      (r.job :: holdersOf (runs.modify k fun r => { r with released := true })) := by
  induction runs generalizing k with
  | nil => simp at hr
  | cons r' runs ih =>
      cases k with
      | zero =>
          rw [List.getElem?_cons_zero, Option.some.injEq] at hr
          subst hr
          simp [holdersOf, hrel]
      | succ k =>
          rw [List.getElem?_cons_succ] at hr
          have hrest := ih hr
          simp only [holdersOf] at hrest ⊢
          cases hr' : r'.released with
          | true => simpa [hr'] using hrest
          | false =>
              simp only [List.modify_succ_cons, List.filter_cons, hr', Bool.not_false, if_true,
                List.map_cons]
              exact (hrest.cons _).trans (List.Perm.swap _ _ _)

theorem get?_lowered (counts : OrderedMap String ℕ) (mfeId m : String) :
    ((lowered counts mfeId).get? m).getD 0 =
      (counts.get? m).getD 0 - if mfeId = m then 1 else 0 := by
  unfold lowered
  split
  · rename_i hle
    rw [OrderedMap.get?_delete]
    split
    · rename_i heq
      subst heq
      simp only [Option.getD_none]
      omega
    · simp
  · rw [OrderedMap.get?_set]
    split
    · rename_i heq
      subst heq
      simp
    · simp

/-- What the maps count in every run: the MFE counts are exact and capped, no more than
`maxSlots` ids are active, and every active id belongs to a call that holds its slot. -/
structure Counted (o : Options) (s : State α) : Prop where
  counts : ∀ m, (s.holders.countP fun job => job.mfeId = m) = (s.perMfeActive.get? m).getD 0
  capped : ∀ m, (s.holders.countP fun job => job.mfeId = m) ≤ o.maxPerMfe
  sized : s.active.size ≤ o.maxSlots
  held : s.active.keys ⊆ s.holders.map Job.requestId

namespace Counted

variable {s t : State α}

/-- A move that starts nothing and releases nothing. -/
theorem of_holders (h : Counted o s) (hh : t.holders = s.holders) (ha : t.active = s.active)
    (hp : t.perMfeActive = s.perMfeActive) : Counted o t where
  counts := by rw [hh, hp]; exact h.counts
  capped := by rw [hh]; exact h.capped
  sized := by rw [ha]; exact h.sized
  held := by rw [hh, ha]; exact h.held

theorem holders_start (s : State α) (job : Job) :
    (startPicked clock s.tick job).holders = s.holders ++ [job] := by
  rw [startPicked_eq]
  simp [State.holders, State.tick]

theorem start (h : Counted o s) {job : Job} (hslot : s.active.size < o.maxSlots)
    (hcan : canRun o s.toTables job = true) : Counted o (startPicked clock s.tick job) := by
  have hcap : (s.perMfeActive.get? job.mfeId).getD 0 < o.maxPerMfe := by
    simpa [canRun, Nat.not_le.mpr hslot] using hcan
  have hcount : ∀ m, ((startPicked clock s.tick job).holders.countP fun j => j.mfeId = m) =
      (s.perMfeActive.get? m).getD 0 + if job.mfeId = m then 1 else 0 := by
    intro m
    rw [holders_start, List.countP_append, h.counts m]
    simp [List.countP_cons]
  refine ⟨?_, ?_, ?_, ?_⟩
  · intro m
    rw [hcount m, startPicked_eq]
    simp only [State.tick, OrderedMap.get?_set]
    split
    · rename_i heq
      simp [heq]
    · rfl
  · intro m
    rw [hcount m]
    split
    · rename_i heq
      subst heq
      omega
    · rw [Nat.add_zero, ← h.counts m]
      exact h.capped m
  · rw [startPicked_eq]
    simp only [State.tick, OrderedMap.size_set]
    split <;> omega
  · rw [holders_start, startPicked_eq, List.map_append]
    simp only [State.tick]
    intro id hid
    by_cases hin : job.requestId ∈ s.active.keys
    · rw [OrderedMap.keys_set_of_mem _ hin] at hid
      exact List.mem_append_left _ (h.held hid)
    · rw [OrderedMap.keys_set_of_notMem _ hin] at hid
      rcases List.mem_append.mp hid with hold | hnew
      · exact List.mem_append_left _ (h.held hold)
      · exact List.mem_append_right _ (by simpa using hnew)

/-- A slot given back leaves the counts of the calls that remain. -/
theorem free (h : Counted o s) {k : ℕ} {r r' : Run α} (hr : s.runs[k]? = some r')
    (hjob : r'.job = r.job) (hrel : r'.released = false) : Counted o (freeSlot clock s k r) := by
  have hperm : s.holders.Perm (r.job :: (freeSlot clock s k r).holders) := by
    rw [freeSlot_eq]
    simp only [State.holders, holdersOf_clearedRuns]
    rw [← hjob]
    exact holdersOf_release hr hrel
  have hcount : ∀ m, (s.holders.countP fun j => j.mfeId = m) =
      ((freeSlot clock s k r).holders.countP fun j => j.mfeId = m) +
        if r.job.mfeId = m then 1 else 0 := by
    intro m
    rw [hperm.countP_eq, List.countP_cons]
    simp
  refine ⟨?_, ?_, ?_, ?_⟩
  · intro m
    have hm := hcount m
    rw [h.counts m] at hm
    rw [freeSlot_eq] at hm ⊢
    simp only at hm ⊢
    rw [get?_lowered]
    omega
  · intro m
    have hm := hcount m
    have hcap := h.capped m
    omega
  · rw [freeSlot_eq]
    exact (OrderedMap.size_delete_le _ _).trans h.sized
  · intro id hid
    have hid' : id ∈ s.active.keys.erase r.job.requestId := by
      rw [freeSlot_eq] at hid
      rwa [OrderedMap.keys_delete] at hid
    obtain ⟨hne, hmem⟩ := s.active.keys_nodup.mem_erase_iff.mp hid'
    obtain ⟨job, hj, heq⟩ := List.mem_map.mp (h.held hmem)
    rcases List.mem_cons.mp (hperm.subset hj) with hfirst | hrest
    · exact absurd (heq.symm.trans (congrArg Job.requestId hfirst)) hne
    · exact List.mem_map.mpr ⟨job, hrest, heq⟩

theorem timedOut (h : Counted o s) (k : ℕ) (r : Run α) : Counted o (timeOut o clock s k r) := by
  rw [timeOut_eq]
  exact h.of_holders (holdersOf_modify (by simp) (by simp) _ _) rfl rfl

theorem setStage (h : Counted o s) (k : ℕ) (st : Stage α) :
    Counted o (s.setRun k fun r => { r with stage := st }) :=
  h.of_holders (holdersOf_modify (by simp) (by simp) _ _) rfl rfl

variable (o clock) in
/-- No move upsets the counts, whatever ids are reused. -/
theorem kept : Kept o clock (Counted o (α := α)) where
  stay _ h := h
  tick _ h := h.of_holders rfl rfl rfl
  start _ _ h hslot hpick := h.start hslot (pickNextJob_spec hpick).2
  accept req _ h _ := by
    rw [accept_eq]
    exact h.of_holders rfl rfl rfl
  disarm _ _ _ h _ _ _ _ := h.of_holders rfl rfl rfl
  expire _ job _ h _ _ _ _ := by
    rw [expireQueued_eq]
    exact h.of_holders rfl rfl rfl
  cancelQueued _ job _ h _ := by
    rw [cancelQueued_eq]
    exact h.of_holders (holdersOf_clearedRuns _ _) rfl rfl
  abort _ _ _ h _ := h.of_holders rfl rfl rfl
  timeOut k r _ h _ _ _ _ := h.timedOut k r
  timeOutFree k r _ h hr _ _ hrel := (h.timedOut k r).free (getElem?_timeOut hr) rfl hrel
  call _ _ _ h _ _ := h.of_holders (holdersOf_modify (by simp) (by simp) _ _) rfl rfl
  settle k _ _ _ h _ _ := h.setStage k _
  react k r result _ h _ _ ht := by
    rw [react_eq o clock ht]
    exact h.of_holders (holdersOf_modify (by simp) (by simp) _ _) rfl rfl
  reactLate k _ _ _ h _ _ _ := h.setStage k _
  finish k _ _ h _ _ _ := h.setStage k _
  finishFree k r _ h hr _ hrel := (h.setStage k .finished).free (getElem?_setStage hr) rfl hrel

theorem start_of_run (o : Options) : Counted o (init o : State α) where
  counts _ := rfl
  capped _ := Nat.zero_le _
  sized := Nat.zero_le _
  held := by simp [init]

/-- The property fails at most by a start that `active` does not count. -/
theorem slotCap_iff (h : Counted o s) : SlotCap o s ↔ s.holders.length = s.active.size := by
  constructor
  · intro hcap
    exact hcap.2.1
  · intro hlen
    exact ⟨hlen ▸ h.sized, hlen, fun m => ⟨h.capped m, h.counts m⟩⟩

end Counted

/-- A start whose id is still in `active`, so that the map entry is overwritten. -/
def Overwrites (p : Job × Tables) : Prop := p.2.active.get? p.1.requestId ≠ none

/-- The ids of the unreleased starts are the ids in `active`, and no start so far has
overwritten an entry. -/
structure Exact (s : State α) : Prop where
  keys : s.active.keys.Perm (s.holders.map Job.requestId)
  fresh : ∀ p ∈ picks s.trace, ¬ Overwrites p

/-- Some start has overwritten an entry. -/
def Overwritten (s : State α) : Prop := ∃ p ∈ picks s.trace, Overwrites p

/-- Inside a step a start may spoil the count; from then on the map stays short of a start. -/
def ExactOrShort (s : State α) : Prop :=
  Exact s ∨ s.active.size < s.holders.length ∧ Overwritten s

namespace Exact

variable {s t : State α}

theorem of_holders (h : Exact s) (hh : t.holders = s.holders) (ha : t.active = s.active)
    (hp : picks t.trace = picks s.trace) : Exact t where
  keys := by rw [hh, ha]; exact h.keys
  fresh := by rw [hp]; exact h.fresh

theorem length_eq (h : Exact s) : s.holders.length = s.active.size := by
  rw [← s.active.length_keys, h.keys.length_eq, List.length_map]

theorem free (h : Exact s) {k : ℕ} {r r' : Run α} (hr : s.runs[k]? = some r')
    (hjob : r'.job = r.job) (hrel : r'.released = false) : Exact (freeSlot clock s k r) := by
  have hperm : s.holders.Perm (r.job :: (freeSlot clock s k r).holders) := by
    rw [freeSlot_eq]
    simp only [State.holders, holdersOf_clearedRuns]
    rw [← hjob]
    exact holdersOf_release hr hrel
  refine ⟨?_, ?_⟩
  · have hkeys := (h.keys.trans (hperm.map Job.requestId)).erase r.job.requestId
    rw [List.map_cons, List.erase_cons_head] at hkeys
    rw [freeSlot_eq] at hkeys ⊢
    rwa [OrderedMap.keys_delete]
  · rw [freeSlot_eq]
    exact h.fresh

theorem timedOut (h : Exact s) (k : ℕ) (r : Run α) : Exact (timeOut o clock s k r) := by
  rw [timeOut_eq]
  exact h.of_holders (holdersOf_modify (by simp) (by simp) _ _) rfl (by simp)

theorem setStage (h : Exact s) (k : ℕ) (st : Stage α) :
    Exact (s.setRun k fun r => { r with stage := st }) :=
  h.of_holders (holdersOf_modify (by simp) (by simp) _ _) rfl rfl

end Exact

theorem ExactOrShort.start {s : State α} (h : ExactOrShort s) (job : Job) :
    ExactOrShort (startPicked clock s.tick job) := by
  have hsize : (startPicked clock s.tick job).active.size ≤ s.active.size + 1 := by
    rw [startPicked_eq]
    simp only [State.tick, OrderedMap.size_set]
    split <;> omega
  have hlen : (startPicked clock s.tick job).holders.length = s.holders.length + 1 := by
    rw [Counted.holders_start, List.length_append, List.length_singleton]
  have hpicks : picks (startPicked clock s.tick job).trace =
      picks s.trace ++ [(job, s.toTables)] := by
    rw [startPicked_eq]
    simp [State.tick]
  rcases h with hex | ⟨hshort, p, hp, hover⟩
  · by_cases hin : s.active.get? job.requestId = none
    · left
      refine ⟨?_, ?_⟩
      · have hout := OrderedMap.get?_eq_none_iff.mp hin
        rw [Counted.holders_start, List.map_append, startPicked_eq]
        simp only [State.tick]
        rw [OrderedMap.keys_set_of_notMem _ hout]
        exact hex.keys.append_right _
      · intro p hp
        rw [hpicks, List.mem_append, List.mem_singleton] at hp
        rcases hp with hold | rfl
        · exact hex.fresh p hold
        · exact not_not.mpr hin
    · right
      refine ⟨?_, (job, s.toTables), ?_, hin⟩
      · have hmem : job.requestId ∈ s.active.keys := by
          rw [OrderedMap.get?_eq_none_iff, not_not] at hin
          exact hin
        have hsame : (startPicked clock s.tick job).active.size = s.active.size := by
          rw [startPicked_eq]
          simp only [State.tick, OrderedMap.size_set, if_pos hmem]
        rw [hsame, hlen, hex.length_eq]
        exact Nat.lt_succ_self _
      · rw [hpicks]
        exact List.mem_append_right _ (List.mem_singleton_self _)
  · right
    refine ⟨by omega, p, ?_, hover⟩
    rw [hpicks]
    exact List.mem_append_left _ hp

variable (o clock) in
/-- A step from an exact state ends in an exact one, or short after overwriting an entry. -/
theorem exact_turn :
    Turn o clock (fun _ => True) (fun _ => Exact (α := α)) (ExactOrShort (α := α)) where
  stay _ h := .inl h
  tick _ h := h.imp_left fun he => he.of_holders rfl rfl rfl
  start job _ h _ _ := h.start job
  accept req _ h _ := by
    rw [accept_eq]
    exact .inl (h.of_holders rfl rfl (by simp))
  disarm _ _ _ h _ _ _ _ := .inl (h.of_holders rfl rfl rfl)
  expire _ job _ h _ _ _ _ := by
    rw [expireQueued_eq]
    exact .inl (h.of_holders rfl rfl (by simp [clearQueueTimer, State.setCell]))
  cancelQueued _ job _ h _ := by
    rw [cancelQueued_eq]
    exact .inl (h.of_holders (holdersOf_clearedRuns _ _) rfl (by simp))
  abort _ _ _ h _ := .inl (h.of_holders rfl rfl rfl)
  timeOut k r _ h _ _ _ _ := .inl (h.timedOut k r)
  timeOutFree k r _ h hr _ _ hrel := .inl ((h.timedOut k r).free (getElem?_timeOut hr) rfl hrel)
  call _ _ _ h _ _ :=
    .inl (h.of_holders (holdersOf_modify (by simp) (by simp) _ _) rfl
      (by simp [State.log, State.setRun]))
  settle k _ _ _ h _ _ := .inl (h.setStage k _)
  react k r result _ h _ _ ht := by
    rw [react_eq o clock ht]
    exact .inl (h.of_holders (holdersOf_modify (by simp) (by simp) _ _) rfl (by simp))
  reactLate k _ _ _ h _ _ _ := .inl (h.setStage k _)
  finish k _ _ h _ _ _ := .inl (h.setStage k _)
  finishFree k r _ h hr _ hrel :=
    .inl ((h.setStage k .finished).free (getElem?_setStage hr) rfl hrel)

theorem Exact.start_of_run (o : Options) : Exact (init o : State α) where
  keys := List.Perm.refl _
  fresh := by simp [init]

/-- The counts are right and the ids of the unreleased starts are the active ones. -/
structure CountedExact (o : Options) (s : State α) : Prop extends Counted o s, Exact s

theorem CountedExact.start_of_run (o : Options) : CountedExact o (init o : State α) :=
  ⟨Counted.start_of_run o, Exact.start_of_run o⟩

theorem CountedExact.slotCap {s : State α} (h : CountedExact o s) : SlotCap o s :=
  h.toCounted.slotCap_iff.mpr h.toExact.length_eq

/-- The cap holds all along a run exactly when the run has overwritten no entry at its end. -/
theorem always_slotCap_iff {as : List (Action α)} {s : State α} (h : exec o clock as = some s) :
    Machine.Always (step o clock) (SlotCap o) (init o) as ↔ ¬ Overwritten s := by
  refine Machine.always_iff_unmarked (CountedExact.start_of_run o) ?_ ?_ ?_ h
  · intro t ht
    refine ⟨ht.slotCap, ?_⟩
    rintro ⟨p, hp, hover⟩
    exact ht.fresh p hp hover
  · rintro t a t' ⟨p, hp, hover⟩ hs
    exact ⟨p, mem_picks.mpr (mem_trace_of_step (mem_picks.mp hp) hs), hover⟩
  · intro t a t' ht hs
    have hcounted : Counted o t' := (Counted.kept o clock).step kept_true trivial ht.toCounted hs
    rcases (exact_turn o clock).step kept_true trivial ht.toExact hs with hex | ⟨hshort, hover⟩
    · exact .inl ⟨hcounted, hex⟩
    · refine .inr ⟨?_, hover⟩
      rw [hcounted.slotCap_iff]
      omega

/-- The cap holds in every state of a run exactly when no start of the run found its id still in
`active`. -/
theorem slotCap_iff_no_overwrite {as : List (Action α)} {s : State α}
    (h : exec o clock as = some s) :
    Machine.Always (step o clock) (SlotCap o) (init o) as ↔
      ∀ job before, Event.picked job before ∈ s.trace →
        before.active.get? job.requestId = none := by
  rw [always_slotCap_iff h]
  constructor
  · intro hnone job before hpick
    by_contra hne
    exact hnone ⟨(job, before), mem_picks.mpr hpick, hne⟩
  · rintro hall ⟨⟨job, before⟩, hp, hover⟩
    exact hover (hall job before (mem_picks.mp hp))

/-- Two slots, and three enqueues of which the first two share their id and MFE. -/
def sharedId : List (Action ℕ) :=
  [.enqueue { requestId := "x", mfeId := "a" }, .enqueue { requestId := "x", mfeId := "a" },
    .enqueue { requestId := "y", mfeId := "b" }]

theorem slotCap_sharedId :
    ¬ Machine.Always (step { maxSlots := 2 } fun _ => 0) (SlotCap { maxSlots := 2 })
      (init { maxSlots := 2 }) sharedId := by
  rw [slotCap_iff_no_overwrite (Option.some_get (by decide)).symm]
  intro hall
  let first : Job := ⟨0, "x", "a", .normal, true, 0⟩
  let second : Job := ⟨1, "x", "a", .normal, true, 0⟩
  let before : Tables :=
    { queue := [second]
      active := (∅ : OrderedMap String Job).set "x" first
      perMfeActive := (∅ : OrderedMap String ℕ).set "a" 1 }
  exact absurd (hall second before (by decide +kernel)) (by decide)

/-- With two slots three jobs come to run at once. -/
theorem slotCap_exceeded :
    ¬ ∀ (o : Options) (clock : ℕ → ℤ) (as : List (Action ℕ)) (s : State ℕ),
      exec o clock as = some s → SlotCap o s := by
  intro hall
  have hthree : (exec { maxSlots := 2 } (fun _ => 0) sharedId).map
      (fun s => s.holders.length) = some 3 := by
    decide
  obtain ⟨s, hs, hlen⟩ := Option.map_eq_some_iff.mp hthree
  have hcap := (hall _ _ _ s hs).1
  rw [hlen] at hcap
  exact absurd hcap (by decide)

end ServeInfer.Scheduler
