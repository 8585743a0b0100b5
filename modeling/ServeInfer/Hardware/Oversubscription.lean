import ServeInfer.Hardware.CapacityPlan
import Mathlib.Data.List.Range
import Mathlib.Data.List.TakeWhile
import Mathlib.Tactic.Linarith

/-!
# No oversubscription

The plan is always defined, what it gives out fits into the card's and the
host's free memory and under the configured count, and the workers are assigned
what the plan has room for.
-/

namespace ServeInfer.Hardware

open Supervisor (WorkerAssignment WorkerBackend)

variable {report : HardwareReport} {limits : CapacityLimits} {plan : CapacityPlan} {ceiling : ℤ}

theorem bytesToMb_nonneg (bytes : UInt64) : 0 ≤ bytesToMb bytes := Int.natCast_nonneg _

theorem bytesToMb_lt (bytes : UInt64) : bytesToMb bytes < 2 ^ 63 := by
  have h := (bytes / (1024 * 1024)).toNat_lt
  have hdiv : (bytes / (1024 * 1024)).toNat = bytes.toNat / 1048576 := by
    rw [UInt64.toNat_div]
    rfl
  have hbytes := bytes.toNat_lt
  unfold bytesToMb
  rw [hdiv]
  omega

theorem reserveOrZero_eq (v : ℤ) : reserveOrZero v = max 0 v := by
  unfold reserveOrZero
  split <;> omega

/-- Taking a reserve off what is free. -/
theorem long_sub_reserve {bytes : UInt64} {reserve : ℤ} (h : CInt.IsLong reserve) :
    CInt.long (bytesToMb bytes - reserveOrZero reserve) =
      some (bytesToMb bytes - max 0 reserve) := by
  have hnonneg := bytesToMb_nonneg bytes
  have hlt := bytesToMb_lt bytes
  obtain ⟨-, hreserve⟩ := h
  rw [reserveOrZero_eq]
  exact CInt.long_eq ⟨by omega, by omega⟩

theorem clampToRange_nonneg {value : ℤ} (h : 0 ≤ ceiling) : 0 ≤ clampToRange value ceiling := by
  unfold clampToRange
  split_ifs <;> omega

theorem clampToRange_le {value : ℤ} (h : 0 ≤ ceiling) : clampToRange value ceiling ≤ ceiling := by
  unfold clampToRange
  split_ifs <;> omega

theorem clampToRange_le_value {value : ℤ} (h : 0 ≤ value) :
    clampToRange value ceiling ≤ value := by
  unfold clampToRange
  split_ifs <;> omega

/-- As many workers as a budget divides into fit into what is usable. -/
theorem clampToRange_mul_le {usable budget : ℤ} (hu : 0 ≤ usable) (hb : 0 < budget) :
    clampToRange (usable / budget) ceiling * budget ≤ usable := by
  calc clampToRange (usable / budget) ceiling * budget
      ≤ usable / budget * budget :=
        Int.mul_le_mul_of_nonneg_right (clampToRange_le_value (Int.ediv_nonneg hu hb.le)) hb.le
    _ ≤ usable := Int.ediv_mul_le usable hb.ne'

/-- A positive number of workers and the reserve fit into what is free. -/
theorem fits_of_pos {free reserve budget : ℤ} (hb : 0 < budget)
    (hpos : 0 < clampToRange (max 0 (free - max 0 reserve) / budget) ceiling) :
    clampToRange (max 0 (free - max 0 reserve) / budget) ceiling * budget + max 0 reserve ≤
      free := by
  have hmul : clampToRange (max 0 (free - max 0 reserve) / budget) ceiling * budget ≤
      max 0 (free - max 0 reserve) := clampToRange_mul_le (le_max_left _ _) hb
  have hused : 0 < clampToRange (max 0 (free - max 0 reserve) / budget) ceiling * budget :=
    Int.mul_pos hpos hb
  omega

/-- The ordinal is found without overflow. -/
theorem ordinalFrom_isSome (fallback : ℤ) (digits : List Char) (hdigits : ∀ c ∈ digits, c.isDigit)
    {ordinal : ℤ} (h0 : 0 ≤ ordinal) (hle : ordinal ≤ 1024) :
    (ordinalFrom fallback ordinal digits).isSome := by
  induction digits generalizing ordinal with
  | nil => rfl
  | cons c rest ih =>
      have hdigit : c.toNat - '0'.toNat ≤ 9 := by
        have hc := hdigits c List.mem_cons_self
        simp only [Char.isDigit, Bool.and_eq_true, decide_eq_true_eq] at hc
        have hle9 : c.toNat ≤ '9'.toNat := hc.2
        have h9 : '9'.toNat = 57 := rfl
        have h48 : '0'.toNat = 48 := rfl
        omega
      have hscaled : CInt.long (ordinal * 10) = some (ordinal * 10) :=
        CInt.long_eq ⟨by omega, by omega⟩
      have hsum : CInt.long (ordinal * 10 + (c.toNat - '0'.toNat : ℕ)) =
          some (ordinal * 10 + (c.toNat - '0'.toNat : ℕ)) :=
        CInt.long_eq ⟨by omega, by omega⟩
      simp only [ordinalFrom, hscaled, hsum, Option.bind_eq_bind, Option.bind_some]
      split
      · rfl
      · exact ih (fun d hd => hdigits d (List.mem_cons_of_mem _ hd)) (by omega) (by omega)

theorem deviceOrdinalFromName_isSome (name : String) (fallback : ℤ) :
    (deviceOrdinalFromName name fallback).isSome := by
  unfold deviceOrdinalFromName
  split
  · rfl
  · apply ordinalFrom_isSome _ _ _ le_rfl (by omega)
    intro c hc
    rw [trailingDigits, List.mem_reverse] at hc
    exact List.mem_takeWhile_imp hc

/-- Of the cards, the chosen one has the most free memory. -/
theorem bestGpu_spec (first : GpuDevice) (rest : List GpuDevice) :
    (bestGpu first rest).1 ∈ first :: rest ∧
      ∀ gpu ∈ first :: rest, gpu.freeBytes ≤ (bestGpu first rest).1.freeBytes := by
  suffices hall : ∀ (l : List (GpuDevice × ℕ)) (best : GpuDevice × ℕ),
      (l.foldl (fun best gpu => if best.1.freeBytes < gpu.1.freeBytes then gpu else best) best).1 ∈
          best.1 :: l.map Prod.fst ∧
        ∀ gpu ∈ best.1 :: l.map Prod.fst, gpu.freeBytes ≤
          (l.foldl (fun best gpu => if best.1.freeBytes < gpu.1.freeBytes then gpu else best)
            best).1.freeBytes by
    have h := hall (rest.zipIdx 1) (first, 0)
    rwa [List.zipIdx_map_fst] at h
  intro l
  induction l with
  | nil =>
      intro best
      simp
  | cons gpu l ih =>
      intro best
      rw [List.foldl_cons, List.map_cons]
      split
      · rename_i hlt
        obtain ⟨hmem, hmax⟩ := ih gpu
        refine ⟨List.mem_cons_of_mem _ hmem, fun other hother => ?_⟩
        obtain rfl | hother := List.mem_cons.mp hother
        · exact UInt64.le_trans (UInt64.le_of_lt hlt) (hmax gpu.1 List.mem_cons_self)
        · exact hmax other hother
      · rename_i hge
        obtain ⟨hmem, hmax⟩ := ih best
        refine ⟨?_, fun other hother => ?_⟩
        · obtain heq | hmem := List.mem_cons.mp hmem
          · rw [heq]
            exact List.mem_cons_self
          · exact List.mem_cons_of_mem _ (List.mem_cons_of_mem _ hmem)
        · obtain rfl | hother := List.mem_cons.mp hother
          · exact hmax _ List.mem_cons_self
          · obtain rfl | hother := List.mem_cons.mp hother
            · exact UInt64.le_trans (UInt64.not_lt.mp hge) (hmax _ List.mem_cons_self)
            · exact hmax other (List.mem_cons_of_mem _ hother)

/-- The workers of a plan and the reserve fit into the free memory of its card. -/
structure FitsCard (limits : CapacityLimits) (plan : CapacityPlan) (card : GpuDevice) : Prop where
  name : plan.gpuName = if card.description.isEmpty then card.name else card.description
  free : plan.freeVramMb = bytesToMb card.freeBytes
  fits : plan.gpuWorkerCapacity * limits.workerGpuMb + max 0 limits.gpuReserveMb ≤
    bytesToMb card.freeBytes

/-- What the first half of the planning leaves. -/
structure GpusPlanned (limits : CapacityLimits) (ceiling : ℤ) (plan : CapacityPlan) : Prop where
  nonneg : 0 ≤ plan.gpuWorkerCapacity
  le : plan.gpuWorkerCapacity ≤ ceiling
  noCpu : plan.cpuWorkerCapacity = 0

theorem planCard_spec (limits : CapacityLimits) (h0 : 0 ≤ ceiling) (best : GpuDevice)
    (position : ℕ) : ∃ plan, planCard limits ceiling best position = some plan ∧
      GpusPlanned limits ceiling plan ∧
      (0 < plan.gpuWorkerCapacity → FitsCard limits plan best) := by
  obtain ⟨ordinal, hordinal⟩ := Option.isSome_iff_exists.mp
    (deviceOrdinalFromName_isSome best.name (CInt.toInt position))
  simp only [planCard, hordinal, long_sub_reserve limits.gpuReserveMb_long, Option.bind_eq_bind,
    Option.bind_some]
  split
  · exact ⟨_, rfl, ⟨le_rfl, h0, rfl⟩, fun hpos => absurd hpos (lt_irrefl _)⟩
  · rename_i husable
    have hbudget : 0 < limits.workerGpuMb := by simpa [budgetUsable] using husable
    split
    · exact ⟨_, rfl, ⟨le_rfl, h0, rfl⟩, fun hpos => absurd hpos (lt_irrefl _)⟩
    · have hlong : CInt.IsLong
          (max 0 (bytesToMb best.freeBytes - max 0 limits.gpuReserveMb)) := by
        have hlt := bytesToMb_lt best.freeBytes
        exact ⟨by omega, by omega⟩
      rw [CInt.divLong_eq (le_max_left _ _) hlong hbudget]
      refine ⟨_, rfl, ⟨clampToRange_nonneg h0, clampToRange_le h0, rfl⟩, fun hpos => ?_⟩
      exact ⟨rfl, rfl, fits_of_pos hbudget hpos⟩

theorem planGpus_spec (report : HardwareReport) (limits : CapacityLimits) (h0 : 0 ≤ ceiling) :
    ∃ plan, planGpus report limits ceiling = some plan ∧ GpusPlanned limits ceiling plan ∧
      (0 < plan.gpuWorkerCapacity → ∃ card ∈ report.gpus,
        (∀ gpu ∈ report.gpus, gpu.freeBytes ≤ card.freeBytes) ∧ FitsCard limits plan card) := by
  unfold planGpus
  split
  · exact ⟨_, rfl, ⟨le_rfl, h0, rfl⟩, fun hpos => absurd hpos (lt_irrefl _)⟩
  · cases hgpus : report.gpus with
    | nil => exact ⟨_, rfl, ⟨le_rfl, h0, rfl⟩, fun hpos => absurd hpos (lt_irrefl _)⟩
    | cons first rest =>
        obtain ⟨plan, hplan, hplanned, hfits⟩ :=
          planCard_spec limits h0 (bestGpu first rest).1 (bestGpu first rest).2
        obtain ⟨hmem, hmax⟩ := bestGpu_spec first rest
        exact ⟨plan, hplan, hplanned, fun hpos => ⟨_, hmem, hmax, hfits hpos⟩⟩

/-- What the second half adds; the card's part stays. -/
theorem planRam_spec (report : HardwareReport) (hc : CInt.IsInt ceiling)
    (hplan : GpusPlanned limits ceiling plan) :
    ∃ plan', planRam report limits ceiling plan = some plan' ∧
      plan'.gpuWorkerCapacity = plan.gpuWorkerCapacity ∧
      (∀ card, FitsCard limits plan card → FitsCard limits plan' card) ∧
      0 ≤ plan'.cpuWorkerCapacity ∧
      plan'.gpuWorkerCapacity + plan'.cpuWorkerCapacity ≤ ceiling ∧
      (0 < plan'.cpuWorkerCapacity →
        plan'.cpuWorkerCapacity * limits.workerRamMb + max 0 limits.ramReserveMb ≤
          bytesToMb report.ram.availableBytes) := by
  obtain ⟨hnonneg, hle, hnoCpu⟩ := hplan
  have hslots : CInt.int (ceiling - plan.gpuWorkerCapacity) =
      some (ceiling - plan.gpuWorkerCapacity) := by
    obtain ⟨-, hlt⟩ := hc
    exact CInt.int_eq ⟨by omega, by omega⟩
  simp only [planRam, hslots, long_sub_reserve limits.ramReserveMb_long, Option.bind_eq_bind,
    Option.bind_some]
  have hnone : (0 : ℤ) < plan.cpuWorkerCapacity →
      plan.cpuWorkerCapacity * limits.workerRamMb + max 0 limits.ramReserveMb ≤
        bytesToMb report.ram.availableBytes := fun hpos => by omega
  split
  · exact ⟨_, rfl, rfl, fun card h => ⟨h.name, h.free, h.fits⟩, hnoCpu.ge, by simpa [hnoCpu],
      hnone⟩
  · split
    · exact ⟨_, rfl, rfl, fun card h => ⟨h.name, h.free, h.fits⟩, hnoCpu.ge, by simpa [hnoCpu],
        hnone⟩
    · rename_i husable
      have hbudget : 0 < limits.workerRamMb := by simpa [budgetUsable] using husable
      have hlong : CInt.IsLong
          (max 0 (bytesToMb report.ram.availableBytes - max 0 limits.ramReserveMb)) := by
        have hlt := bytesToMb_lt report.ram.availableBytes
        exact ⟨by omega, by omega⟩
      rw [CInt.divLong_eq (le_max_left _ _) hlong hbudget]
      refine ⟨_, rfl, rfl, fun card h => ⟨h.name, h.free, h.fits⟩,
        clampToRange_nonneg (le_max_left _ _), ?_, fun hpos => fits_of_pos hbudget hpos⟩
      have hclamped : clampToRange
          (max 0 (bytesToMb report.ram.availableBytes - max 0 limits.ramReserveMb) /
            limits.workerRamMb) (max 0 (ceiling - plan.gpuWorkerCapacity)) ≤
          max 0 (ceiling - plan.gpuWorkerCapacity) := clampToRange_le (le_max_left _ _)
      dsimp only
      omega

theorem workerId_assignWorkers (plan : CapacityPlan) (k : ℤ) :
    (assignWorkers plan k).map WorkerAssignment.workerId =
      (List.range k.toNat).map fun (n : ℕ) => (n : ℤ) := by
  unfold assignWorkers
  rw [List.map_map]
  refine List.map_congr_left fun n _ => ?_
  simp only [Function.comp_apply, assignWorker]
  split <;> rfl

/-- The first workers get the card, as many as it has room for. -/
theorem countP_cuda_assignWorkers (plan : CapacityPlan) (k : ℤ) :
    (assignWorkers plan k).countP (fun a => a.backend = .cuda) =
      min k.toNat plan.gpuWorkerCapacity.toNat := by
  have hbackend : ∀ n : ℕ, (assignWorker plan n).backend = .cuda ↔
      n < plan.gpuWorkerCapacity.toNat := by
    intro n
    unfold assignWorker
    split
    · rename_i hlt
      simp only [true_iff]
      omega
    · rename_i hge
      simp only [reduceCtorEq, false_iff]
      omega
  unfold assignWorkers
  rw [List.countP_map]
  induction k.toNat with
  | zero => simp
  | succ n ih =>
      rw [List.range_succ, List.countP_append, ih, List.countP_singleton]
      simp only [Function.comp_apply, decide_eq_true_eq, hbackend]
      split <;> omega

/-- How many workers are started: no more than are configured, and more than fit only where
nothing fits and one is started all the same. -/
theorem placeableWorkerCount_spec (plan : CapacityPlan) (n : ℤ)
    (hsum : CInt.IsInt (plan.gpuWorkerCapacity + plan.cpuWorkerCapacity))
    (hnonneg : 0 ≤ plan.gpuWorkerCapacity + plan.cpuWorkerCapacity) :
    ∃ k, placeableWorkerCount plan n = some k ∧ 0 ≤ k ∧ k ≤ max 0 n ∧
      (plan.gpuWorkerCapacity + plan.cpuWorkerCapacity < k →
        k = 1 ∧ plan.gpuWorkerCapacity + plan.cpuWorkerCapacity = 0) := by
  unfold placeableWorkerCount
  split
  · exact ⟨0, rfl, le_rfl, by omega, fun hlt => by omega⟩
  · rw [CInt.int_eq hsum, Option.map_some]
    split
    · exact ⟨_, rfl, by omega, by omega, fun hlt => by omega⟩
    · split
      · exact ⟨_, rfl, by omega, by omega, fun _ => ⟨rfl, by omega⟩⟩
      · exact ⟨_, rfl, by omega, by omega, fun hlt => by omega⟩

/-- Every report and all limits give a plan, no operation overflowing. What it gives out stays
under the configured count and fits, with the reserves, into what is free on the card with the
most free memory and on the host. The workers that are started for a configured count have the
first ids, the first of them are on the card, and there are more than fit only if it is the one
that is always started. -/
theorem no_oversubscription (report : HardwareReport) (limits : CapacityLimits) :
    ∃ plan, planCapacity report limits = some plan ∧
      plan.gpuWorkerCapacity + plan.cpuWorkerCapacity ≤ max 0 limits.maxWorkers ∧
      (0 < plan.gpuWorkerCapacity → ∃ card ∈ report.gpus,
        (∀ gpu ∈ report.gpus, gpu.freeBytes ≤ card.freeBytes) ∧ FitsCard limits plan card) ∧
      (0 < plan.cpuWorkerCapacity →
        plan.cpuWorkerCapacity * limits.workerRamMb + max 0 limits.ramReserveMb ≤
          bytesToMb report.ram.availableBytes) ∧
      ∀ n, ∃ k, placeableWorkerCount plan n = some k ∧ k ≤ max 0 n ∧
        (assignWorkers plan k).map WorkerAssignment.workerId =
          (List.range k.toNat).map (fun (i : ℕ) => (i : ℤ)) ∧
        ((assignWorkers plan k).countP (fun a => a.backend = .cuda) : ℤ) =
          min k plan.gpuWorkerCapacity ∧
        (plan.gpuWorkerCapacity + plan.cpuWorkerCapacity < k →
          k = 1 ∧ plan.gpuWorkerCapacity + plan.cpuWorkerCapacity = 0) := by
  have h0 : 0 ≤ max 0 limits.maxWorkers := le_max_left _ _
  have hc : CInt.IsInt (max 0 limits.maxWorkers) := by
    obtain ⟨-, hlt⟩ := limits.maxWorkers_int
    exact ⟨by omega, by omega⟩
  obtain ⟨cards, hcards, hplanned, hfits⟩ := planGpus_spec report limits h0
  obtain ⟨plan, hplan, hgpu, hkept, hcpu, hsum, hram⟩ := planRam_spec report hc hplanned
  have hnonneg : 0 ≤ plan.gpuWorkerCapacity := hgpu ▸ hplanned.nonneg
  refine ⟨plan, ?_, hsum, fun hpos => ?_, hram, fun n => ?_⟩
  · simp only [planCapacity, hcards, Option.bind_eq_bind, Option.bind_some, hplan]
  · obtain ⟨card, hmem, hmax, hfit⟩ := hfits (hgpu ▸ hpos)
    exact ⟨card, hmem, hmax, hkept card hfit⟩
  · obtain ⟨k, hk, hk0, hkn, hfloor⟩ := placeableWorkerCount_spec plan n
      (by obtain ⟨-, hlt⟩ := hc; exact ⟨by omega, by omega⟩) (by omega)
    refine ⟨k, hk, hkn, workerId_assignWorkers plan k, ?_, hfloor⟩
    rw [countP_cuda_assignWorkers]
    omega

/-- A count that is not positive starts nobody, which is more than a negative one. -/
theorem negative_count_exceeded :
    ¬ ∀ (report : HardwareReport) (limits : CapacityLimits) (plan : CapacityPlan) (n k : ℤ),
      planCapacity report limits = some plan → placeableWorkerCount plan n = some k → k ≤ n := by
  intro hall
  have hplan : (planCapacity {} {}).isSome = true := by decide
  obtain ⟨plan, hplan⟩ := Option.isSome_iff_exists.mp hplan
  have hle := hall {} {} plan (-1) 0 hplan rfl
  omega

end ServeInfer.Hardware
