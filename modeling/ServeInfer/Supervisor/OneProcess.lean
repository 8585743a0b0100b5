import Mathlib.Data.List.Perm.Subperm
import ServeInfer.Hardware.Oversubscription
import ServeInfer.Supervisor.RosterSteps

/-!
# The worker processes of a run

In every run of the supervisor a worker id has at most one unreaped process,
signals go to unreaped children, assignments move from `cuda` to `cpu` alone,
and no more workers see the card than the plan has room for.
-/

namespace ServeInfer.Supervisor

/-- A worker sees a CUDA device unless the environment it was started with hides them. One
without an assignment has the supervisor's. -/
def Child.SeesCuda (c : Child) : Prop := c.type = .worker ∧ c.backend ≠ some .cpu

instance (c : Child) : Decidable c.SeesCuda := inferInstanceAs (Decidable (_ ∧ _))

/-- The live workers that were started with a visible CUDA device. -/
def State.liveCuda (s : State) : ℕ := s.children.countP fun c => c.status = none ∧ c.SeesCuda

/-- `discoverHardware`: the plan for the configured count, and what it assigns. -/
structure Discovered (report : Hardware.HardwareReport) (limits : Hardware.CapacityLimits)
    (cfg : Config) (plan : Hardware.CapacityPlan) : Prop where
  maxWorkers : limits.maxWorkers = cfg.workerCount
  planned : Hardware.planCapacity report limits = some plan
  count : Hardware.placeableWorkerCount plan cfg.workerCount = some cfg.effectiveWorkerCount
  assignments : cfg.assignments = Hardware.assignWorkers plan cfg.effectiveWorkerCount

/-- The entry's signal, if it tells of one, met an unreaped child. -/
def Event.Met : Event → Prop
  | .killed victim .. => victim ≠ none
  | .terminated victim _ => victim ≠ none
  | _ => True

/-- The worker table and the workers' entries are inverse to each other, the entries are those of
the unreaped children, of which no two stand for one worker id, and every signal met one. -/
structure OneEach (s : State) : Prop where
  inverse : ∀ w pid, s.workerPidById.get? w = some pid ↔
    ∃ info, s.processesByPid.get? pid = some info ∧ info.type = .worker ∧ info.workerId = w
  unreaped : ∀ pid, (∃ info, s.processesByPid.get? pid = some info) ↔ pid ∈ s.pids
  single : ∀ c ∈ s.children, ∀ d ∈ s.children, c.type = .worker → d.type = .worker →
    c.workerId = d.workerId → c = d
  signals : ∀ e ∈ s.trace, e.Met

namespace State

variable {cfg : Config} {gone : ℕ → Prop} {only : ℤ → Prop} {s s' : State} {as bs : List Action}

/-- No two workers among the children stand for one id. -/
theorem Roster.single (h : s.Roster cfg) {c d : Child} (hc : c ∈ s.children)
    (hd : d ∈ s.children) (hct : c.type = .worker) (hdt : d.type = .worker)
    (hid : c.workerId = d.workerId) : c = d := by
  have hcp := h.mapped.mpr ⟨c, hc, rfl, hct, rfl⟩
  have hdp := h.mapped.mpr ⟨d, hd, rfl, hdt, rfl⟩
  rw [hid, hdp, Option.some.injEq] at hcp
  exact List.inj_on_of_nodup_map h.pids hc hd hcp.symm

theorem Roster.oneEach (h : s.Roster cfg) (hmet : ∀ e ∈ s.trace, e.Met) : OneEach s where
  inverse w pid := by
    rw [h.mapped]
    constructor
    · rintro ⟨c, hc, rfl, ht, hid⟩
      exact ⟨_, h.entry hc, ht, hid⟩
    · rintro ⟨info, hinfo, ht, hid⟩
      obtain ⟨c, hc, hpid, rfl⟩ := h.entered.mp hinfo
      exact ⟨c, hc, hpid, ht, hid⟩
  unreaped pid := by
    constructor
    · rintro ⟨info, hinfo⟩
      obtain ⟨c, hc, rfl, -⟩ := h.entered.mp hinfo
      exact List.mem_map_of_mem hc
    · intro hpid
      obtain ⟨c, hc, rfl⟩ := List.mem_map.mp hpid
      exact ⟨_, h.entry hc⟩
  single _ hc _ hd := h.single hc hd
  signals := hmet

theorem met_of_soft {e : Event} (h : e.Soft) : e.Met := by
  cases e with
  | killed victim w verdict now => exact h
  | terminated victim w => exact h
  | _ => trivial

/-- Every deed's signal meets an unreaped child. -/
theorem Deed.met (hd : Deed cfg gone only s s') (h : ∀ e ∈ s.trace, e.Met) :
    ∀ e ∈ s'.trace, e.Met := by
  cases hd with
  | aside ha =>
      obtain ⟨es, hes, hsoft⟩ := ha.trace
      rw [hes]
      intro e he
      exact (List.mem_append.mp he).elim (h e) fun he => met_of_soft (hsoft e he)
  | demoted i a reason ha hcuda hvacant heq =>
      subst heq
      exact h
  | singleton c hl ht hw htrace => exact htrace ▸ h
  | staffed c now hf _ =>
      rw [hf.trace]
      intro e he
      refine (List.mem_append.mp he).elim (h e) fun he => ?_
      rw [List.mem_singleton.mp he]
      trivial
  | left pid hl _ => exact hl.trace ▸ h
  | ended serial status heq =>
      subst heq
      exact h

/-- A deed only demotes. -/
theorem Deed.onlyDemoted (hd : Deed cfg gone only s s') : OnlyDemoted s.assignments s'.assignments := by
  cases hd with
  | aside ha => exact ha.assignments ▸ .refl _
  | demoted i a reason ha hcuda hvacant heq =>
      subst heq
      apply onlyDemoted_modify
      intro b hb
      rw [ha, Option.some.injEq] at hb
      exact hb ▸ hcuda
  | singleton c hl ht hw htrace => exact hl.assignments ▸ .refl _
  | staffed c now hf _ => exact hf.assignments ▸ .refl _
  | left pid hl _ => exact hl.assignments ▸ .refl _
  | ended serial status heq =>
      subst heq
      exact .refl _

theorem Deeds.onlyDemoted (h : Deeds cfg gone only s s') :
    OnlyDemoted s.assignments s'.assignments := by
  induction h with
  | refl => exact .refl _
  | tail _ hd ih => exact ih.trans hd.onlyDemoted

/-- What holds between any two steps of a run. -/
structure Manned (cfg : Config) (s : State) : Prop where
  roster : s.Roster cfg
  bootIds : s.BootIds
  met : ∀ e ∈ s.trace, e.Met

theorem Manned.step (h : s.Manned cfg) {a : Action} (hs : Supervisor.step cfg s a = some s') :
    s'.Manned cfg := by
  have hdeeds := h.roster.deeds_of_step h.bootIds hs
  exact ⟨hdeeds.invariant (fun _ _ ht hd => ht.deed hd) h.roster, h.bootIds.step hs,
    hdeeds.invariant (fun _ _ ht hd => hd.met ht) h.met⟩

theorem Manned.exec (h : s.Manned cfg)
    (hrun : Machine.exec (Supervisor.step cfg) s as = some s') : s'.Manned cfg :=
  Machine.exec_invariant h (fun _ _ _ ht hs => ht.step hs) hrun

theorem manned_init (cfg : Config) : (init cfg).Manned cfg where
  roster :=
    { pids := List.nodup_nil
      entered := ⟨nofun, fun ⟨_, hc, _⟩ => (List.not_mem_nil hc).elim⟩
      mapped := ⟨nofun, fun ⟨_, hc, _⟩ => (List.not_mem_nil hc).elim⟩
      ids := fun _ hc => (List.not_mem_nil hc).elim
      backend := fun _ hc => (List.not_mem_nil hc).elim }
  bootIds _ hc := (List.not_mem_nil hc).elim
  met _ he := (List.not_mem_nil he).elim

/-- Along a run the assignments are only demoted. -/
theorem Manned.onlyDemoted (h : s.Manned cfg)
    (hrun : Machine.exec (Supervisor.step cfg) s as = some s') :
    OnlyDemoted s.assignments s'.assignments := by
  have hboth : s'.Manned cfg ∧ OnlyDemoted s.assignments s'.assignments := by
    apply Machine.exec_invariant
      (P := fun t => t.Manned cfg ∧ OnlyDemoted s.assignments t.assignments) ⟨h, .refl _⟩ ?_ hrun
    rintro t a t' ⟨ht, hdemoted⟩ hs
    exact ⟨ht.step hs,
      hdemoted.trans (ht.roster.deeds_of_step ht.bootIds hs).onlyDemoted⟩
  exact hboth.2

end State

/-- Demotions keep the ids. -/
theorem OnlyDemoted.workerIds {l l' : List WorkerAssignment} (h : OnlyDemoted l l') :
    l'.map WorkerAssignment.workerId = l.map WorkerAssignment.workerId := by
  induction h with
  | nil => rfl
  | cons hab _ ih => rw [List.map_cons, List.map_cons, hab.1, ih]

/-- Demotions put nobody on the card. -/
theorem OnlyDemoted.countP_cuda {l l' : List WorkerAssignment} (h : OnlyDemoted l l') :
    l'.countP (fun a => a.backend = .cuda) ≤ l.countP fun a => a.backend = .cuda := by
  induction h with
  | nil => exact le_rfl
  | @cons a b l l' hab _ ih =>
      rw [List.countP_cons, List.countP_cons]
      have hone : (if decide (b.backend = .cuda) = true then 1 else 0) ≤
          if decide (a.backend = .cuda) = true then 1 else 0 := by
        rcases hab.2 with hsame | ⟨-, hcpu⟩
        · rw [hsame]
        · rw [hcpu]
          exact Nat.zero_le _
      exact Nat.add_le_add ih hone

/-- A plan never has negative room on the card. -/
theorem gpuWorkerCapacity_nonneg {report : Hardware.HardwareReport}
    {limits : Hardware.CapacityLimits} {plan : Hardware.CapacityPlan}
    (h : Hardware.planCapacity report limits = some plan) : 0 ≤ plan.gpuWorkerCapacity := by
  have h0 : 0 ≤ max 0 limits.maxWorkers := le_max_left _ _
  have hc : CInt.IsInt (max 0 limits.maxWorkers) := by
    obtain ⟨-, hlt⟩ := limits.maxWorkers_int
    exact ⟨by omega, by omega⟩
  obtain ⟨cards, hcards, hplanned, -⟩ := Hardware.planGpus_spec report limits h0
  obtain ⟨plan', hplan', hgpu, -⟩ := Hardware.planRam_spec report hc hplanned
  have hsame : Hardware.planCapacity report limits = some plan' := by
    simp only [Hardware.planCapacity, hcards, Option.bind_eq_bind, Option.bind_some, hplan']
  obtain rfl := Option.some.inj (h.symm.trans hsame)
  exact hgpu ▸ hplanned.nonneg

variable {cfg : Config} {s s' : State} {report : Hardware.HardwareReport}
  {limits : Hardware.CapacityLimits} {plan : Hardware.CapacityPlan} {as : List Action}

/-- A worker that sees the card is assigned to it. -/
theorem State.Roster.assigned_cuda (h : s.Roster cfg)
    (hids : s.assignments.map WorkerAssignment.workerId =
      (List.range cfg.effectiveWorkerCount).map fun (i : ℕ) => (i : ℤ))
    {c : Child} (hc : c ∈ s.children) (hcuda : c.SeesCuda) :
    ∃ a ∈ s.assignments, a.backend = .cuda ∧ a.workerId = c.workerId := by
  obtain ⟨ht, hbackend⟩ := hcuda
  obtain ⟨hlow, hhigh⟩ := h.ids c hc ht
  have hmem : c.workerId ∈ s.assignments.map WorkerAssignment.workerId := by
    rw [hids]
    refine List.mem_map.mpr ⟨c.workerId.toNat, List.mem_range.mpr ?_, ?_⟩
    · omega
    · exact Int.toNat_of_nonneg hlow
  obtain ⟨b, hb, hbid⟩ := List.mem_map.mp hmem
  obtain ⟨a, ha⟩ : ∃ a, s.assignmentFor c.workerId = some a :=
    Option.isSome_iff_exists.mp (List.find?_isSome.mpr ⟨b, hb, decide_eq_true hbid⟩)
  have hassigned := h.backend c hc ht
  rw [ha, Option.map_some] at hassigned
  refine ⟨a, List.mem_of_find?_eq_some ha, ?_, ?_⟩
  · rw [hassigned] at hbackend
    cases hside : a.backend with
    | cuda => rfl
    | cpu => exact absurd (congrArg some hside) hbackend
  · simpa using List.find?_some ha

/-- No more live workers see the card than are assigned to it. -/
theorem State.Roster.liveCuda_le (h : s.Roster cfg)
    (hids : s.assignments.map WorkerAssignment.workerId =
      (List.range cfg.effectiveWorkerCount).map fun (i : ℕ) => (i : ℤ)) :
    s.liveCuda ≤ s.assignments.countP fun a => a.backend = .cuda := by
  have hchildren : s.children.Nodup := h.pids.of_map
  have hnodup : ((s.children.filter fun c => c.status = none ∧ c.SeesCuda).map
      Child.workerId).Nodup := by
    refine List.Nodup.map_on ?_ (hchildren.filter _)
    intro c hc d hd hid
    obtain ⟨hc, hcuda⟩ := List.mem_filter.mp hc
    obtain ⟨hd, hduda⟩ := List.mem_filter.mp hd
    exact h.single hc hd (of_decide_eq_true hcuda).2.1 (of_decide_eq_true hduda).2.1 hid
  have hsub : (s.children.filter fun c => c.status = none ∧ c.SeesCuda).map Child.workerId ⊆
      (s.assignments.filter fun a => a.backend = .cuda).map WorkerAssignment.workerId := by
    intro w hw
    obtain ⟨c, hc, rfl⟩ := List.mem_map.mp hw
    obtain ⟨hc, hcuda⟩ := List.mem_filter.mp hc
    obtain ⟨a, ha, hbackend, hid⟩ := h.assigned_cuda hids hc (of_decide_eq_true hcuda).2
    exact List.mem_map.mpr ⟨a, List.mem_filter.mpr ⟨ha, decide_eq_true hbackend⟩, hid⟩
  calc
    s.liveCuda = ((s.children.filter fun c => c.status = none ∧ c.SeesCuda).map
        Child.workerId).length := by rw [State.liveCuda, List.countP_eq_length_filter,
          List.length_map]
    _ ≤ ((s.assignments.filter fun a => a.backend = .cuda).map
        WorkerAssignment.workerId).length := (List.subperm_of_subset hnodup hsub).length_le
    _ = s.assignments.countP fun a => a.backend = .cuda := by
      rw [List.length_map, List.countP_eq_length_filter]

/-- In every run of the supervisor over a discovered plan: one process for each worker id, no
assignment moved but from `cuda` to `cpu`, and no more live workers with a visible CUDA device
than the plan has room for. -/
theorem one_process_per_worker (hplan : Discovered report limits cfg plan)
    (hrun : Machine.exec (step cfg) (init cfg) as = some s) :
    OneEach s ∧
      (∀ bs s', Machine.exec (step cfg) s bs = some s' →
        OnlyDemoted s.assignments s'.assignments) ∧
      (s.liveCuda : ℤ) ≤ plan.gpuWorkerCapacity := by
  have hmanned := (State.manned_init cfg).exec hrun
  have hdemoted : OnlyDemoted cfg.assignments s.assignments :=
    (State.manned_init cfg).onlyDemoted hrun
  have hids : s.assignments.map WorkerAssignment.workerId =
      (List.range cfg.effectiveWorkerCount).map fun (i : ℕ) => (i : ℤ) := by
    rw [hdemoted.workerIds, hplan.assignments, Hardware.workerId_assignWorkers, Int.toNat_natCast]
  refine ⟨hmanned.roster.oneEach hmanned.met, fun _ _ h => hmanned.onlyDemoted h, ?_⟩
  have hnonneg := gpuWorkerCapacity_nonneg hplan.planned
  have hcount : s.liveCuda ≤ plan.gpuWorkerCapacity.toNat := by
    calc
      s.liveCuda ≤ s.assignments.countP fun a => a.backend = .cuda :=
        hmanned.roster.liveCuda_le hids
      _ ≤ cfg.assignments.countP fun a => a.backend = .cuda := hdemoted.countP_cuda
      _ = min cfg.effectiveWorkerCount plan.gpuWorkerCapacity.toNat := by
        rw [hplan.assignments, Hardware.countP_cuda_assignWorkers, Int.toNat_natCast]
      _ ≤ plan.gpuWorkerCapacity.toNat := Nat.min_le_right _ _
  omega

/-- A card with room for one worker beside its reserve, and host memory for three. -/
def oneCard : Hardware.HardwareReport where
  gpus := [{ name := "CUDA0", freeBytes := 3221225472, totalBytes := 4294967296 }]
  ram := { totalBytes := 8589934592, availableBytes := 4294967296 }
  probeOk := true

def twoConfigured : Hardware.CapacityLimits := { maxWorkers := 2 }

def oneCardPlan : Hardware.CapacityPlan :=
  (Hardware.planCapacity oneCard twoConfigured).getD {}

/-- Two workers, the first on the card. -/
def cardAndCpu : Config where
  workerCount := 2
  effectiveWorkerCount := 2
  effective_le := Nat.le_refl 2
  workerCount_lt := Nat.le_of_ble_eq_true rfl
  assignments := Hardware.assignWorkers oneCardPlan 2

/-- Worker 0 asks for the cpu, and worker 1 crashes. -/
def reassignedRun : List Action :=
  [.start { pid := some 10 } 7, .ready true, .start { pid := some 11 } 0,
    .start { pid := some 12 } 0, .start { pid := some 13 } 0, .start { pid := none } 0, .wake,
    .die 2 17920, .die 3 139, .reap 12 { reassignFork := { pid := some 14 } },
    .reap 13 { fork := { pid := some 12 } }, .reaped]

theorem one_process_per_worker_reassigned :
    ∃ s, Machine.exec (step cardAndCpu) (init cardAndCpu) reassignedRun = some s ∧ OneEach s ∧
      (s.liveCuda : ℤ) ≤ oneCardPlan.gpuWorkerCapacity := by
  have hplan : Discovered oneCard twoConfigured cardAndCpu oneCardPlan :=
    ⟨rfl, by decide, by decide, rfl⟩
  have hsome : (Machine.exec (step cardAndCpu) (init cardAndCpu) reassignedRun).isSome := by
    decide
  obtain ⟨s, hs⟩ := Option.isSome_iff_exists.mp hsome
  obtain ⟨hone, -, hcuda⟩ := one_process_per_worker hplan hs
  exact ⟨s, hs, hone, hcuda⟩

end ServeInfer.Supervisor
