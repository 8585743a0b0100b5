import ServeInfer.Hardware.Oversubscription

/-!
# More room, no fewer workers

With the probe answering and both budgets positive, the capacities have a closed
form: as many workers as the budgets go into what is left after the reserves, the
card first, all under the configured maximum. It grows with what is free and
shrinks with the reserves and the budgets.
-/

namespace ServeInfer.Hardware

variable {report report' : HardwareReport} {limits limits' : CapacityLimits} {ceiling : ℤ}

/-- How often a budget goes into what is left of the free memory after the reserve. -/
def budgetsIn (free reserve budget : ℤ) : ℤ := max 0 (free - max 0 reserve) / budget

/-- What is free on the card that is chosen, and nothing without a card. -/
def freestMb : List GpuDevice → ℤ
  | [] => 0
  | first :: rest => bytesToMb (bestGpu first rest).1.freeBytes

theorem budgetsIn_nonneg {free reserve budget : ℤ} (hb : 0 < budget) :
    0 ≤ budgetsIn free reserve budget :=
  Int.ediv_nonneg (le_max_left _ _) hb.le

theorem budgetsIn_zero (reserve budget : ℤ) : budgetsIn 0 reserve budget = 0 := by
  have hleft : max 0 (0 - max 0 reserve) = 0 := by omega
  rw [budgetsIn, hleft, Int.zero_ediv]

/-- What is left is less than a budget. -/
theorem budgetsIn_eq_zero {free reserve budget : ℤ} (h : max 0 (free - max 0 reserve) < budget) :
    budgetsIn free reserve budget = 0 :=
  Int.ediv_eq_zero_of_lt (le_max_left _ _) h

/-- More free memory, a smaller reserve and a smaller budget. -/
theorem budgetsIn_mono {free free' reserve reserve' budget budget' : ℤ} (hfree : free ≤ free')
    (hreserve : reserve' ≤ reserve) (hbudget : budget' ≤ budget) (hpos : 0 < budget') :
    budgetsIn free reserve budget ≤ budgetsIn free' reserve' budget' := by
  have hb : 0 < budget := by omega
  have hleft : max 0 (free - max 0 reserve) ≤ max 0 (free' - max 0 reserve') := by omega
  unfold budgetsIn
  apply Int.le_ediv_of_mul_le hpos
  calc max 0 (free - max 0 reserve) / budget * budget'
      ≤ max 0 (free - max 0 reserve) / budget * budget :=
        Int.mul_le_mul_of_nonneg_left hbudget (budgetsIn_nonneg hb)
    _ ≤ max 0 (free - max 0 reserve) := Int.ediv_mul_le _ hb.ne'
    _ ≤ max 0 (free' - max 0 reserve') := hleft

theorem clampToRange_eq {value : ℤ} (hvalue : 0 ≤ value) (h0 : 0 ≤ ceiling) :
    clampToRange value ceiling = min ceiling value := by
  unfold clampToRange
  split_ifs <;> omega

theorem bytesToMb_mono {bytes bytes' : UInt64} (h : bytes ≤ bytes') :
    bytesToMb bytes ≤ bytesToMb bytes' := by
  have hle : bytes.toNat ≤ bytes'.toNat := UInt64.le_iff_toNat_le.mp h
  unfold bytesToMb
  rw [UInt64.toNat_div, UInt64.toNat_div]
  apply Int.ofNat_le.mpr
  exact Nat.div_le_div_right hle

theorem freestMb_nonneg (gpus : List GpuDevice) : 0 ≤ freestMb gpus := by
  cases gpus with
  | nil => exact le_rfl
  | cons first rest => exact bytesToMb_nonneg _

/-- Another card may be chosen, but not one with less free memory. -/
theorem freestMb_mono {gpus gpus' : List GpuDevice}
    (h : ∀ card ∈ gpus, ∃ card' ∈ gpus', card.freeBytes ≤ card'.freeBytes) :
    freestMb gpus ≤ freestMb gpus' := by
  cases gpus with
  | nil => exact freestMb_nonneg gpus'
  | cons first rest =>
      obtain ⟨card, hcard, hle⟩ := h _ (bestGpu_spec first rest).1
      cases gpus' with
      | nil => exact absurd hcard List.not_mem_nil
      | cons first' rest' =>
          apply bytesToMb_mono
          exact UInt64.le_trans hle ((bestGpu_spec first' rest').2 card hcard)

/-- The workers on the card that is chosen. -/
theorem planCard_capacity (hb : 0 < limits.workerGpuMb) (h0 : 0 ≤ ceiling) (best : GpuDevice)
    (position : ℕ) : ∃ plan, planCard limits ceiling best position = some plan ∧
      plan.gpuWorkerCapacity = min ceiling
        (budgetsIn (bytesToMb best.freeBytes) limits.gpuReserveMb limits.workerGpuMb) := by
  obtain ⟨ordinal, hordinal⟩ := Option.isSome_iff_exists.mp
    (deviceOrdinalFromName_isSome best.name (CInt.toInt position))
  have husable : ¬(!budgetUsable limits.workerGpuMb) = true := by simp [budgetUsable, hb]
  simp only [planCard, hordinal, long_sub_reserve limits.gpuReserveMb_long, Option.bind_eq_bind,
    Option.bind_some, if_neg husable]
  split
  · rename_i hbelow
    refine ⟨_, rfl, ?_⟩
    rw [budgetsIn_eq_zero hbelow, min_eq_right h0]
  · have hlong : CInt.IsLong (max 0 (bytesToMb best.freeBytes - max 0 limits.gpuReserveMb)) := by
      have hlt := bytesToMb_lt best.freeBytes
      exact ⟨by omega, by omega⟩
    rw [CInt.divLong_eq (le_max_left _ _) hlong hb]
    exact ⟨_, rfl, clampToRange_eq (budgetsIn_nonneg hb) h0⟩

theorem planGpus_capacity (hok : report.probeOk = true) (hb : 0 < limits.workerGpuMb)
    (h0 : 0 ≤ ceiling) : ∃ plan, planGpus report limits ceiling = some plan ∧
      plan.gpuWorkerCapacity = min ceiling
        (budgetsIn (freestMb report.gpus) limits.gpuReserveMb limits.workerGpuMb) := by
  unfold planGpus
  rw [if_neg (by simp [hok])]
  cases report.gpus with
  | nil =>
      refine ⟨_, rfl, ?_⟩
      rw [freestMb, budgetsIn_zero, min_eq_right h0]
  | cons first rest => exact planCard_capacity hb h0 _ _

/-- The workers without a card. -/
theorem planRam_capacity (report : HardwareReport) {plan : CapacityPlan} (hc : CInt.IsInt ceiling)
    (hb : 0 < limits.workerRamMb) (hplan : GpusPlanned limits ceiling plan) :
    ∃ plan', planRam report limits ceiling plan = some plan' ∧
      plan'.gpuWorkerCapacity = plan.gpuWorkerCapacity ∧
      plan'.cpuWorkerCapacity = min (ceiling - plan.gpuWorkerCapacity)
        (budgetsIn (bytesToMb report.ram.availableBytes) limits.ramReserveMb
          limits.workerRamMb) := by
  obtain ⟨hnonneg, hle, hnoCpu⟩ := hplan
  have hroom : 0 ≤ ceiling - plan.gpuWorkerCapacity := by omega
  have hslots : CInt.int (ceiling - plan.gpuWorkerCapacity) =
      some (ceiling - plan.gpuWorkerCapacity) := by
    obtain ⟨-, hlt⟩ := hc
    exact CInt.int_eq ⟨by omega, by omega⟩
  have husable : ¬(!budgetUsable limits.workerRamMb) = true := by simp [budgetUsable, hb]
  simp only [planRam, hslots, long_sub_reserve limits.ramReserveMb_long, Option.bind_eq_bind,
    Option.bind_some, if_neg husable]
  split
  · rename_i hunknown
    refine ⟨_, rfl, rfl, ?_⟩
    have hnone : bytesToMb report.ram.availableBytes = 0 := by
      rw [hunknown]
      rfl
    rw [hnone, budgetsIn_zero, min_eq_right hroom]
    exact hnoCpu
  · have hlong : CInt.IsLong
        (max 0 (bytesToMb report.ram.availableBytes - max 0 limits.ramReserveMb)) := by
      have hlt := bytesToMb_lt report.ram.availableBytes
      exact ⟨by omega, by omega⟩
    rw [CInt.divLong_eq (le_max_left _ _) hlong hb, max_eq_right hroom]
    exact ⟨_, rfl, rfl, clampToRange_eq (budgetsIn_nonneg hb) hroom⟩

/-- The workers of a plan, on the card and in all. What the card takes off the maximum is no
longer there for the others, so the sum is again cut at the maximum. -/
theorem planCapacity_capacities (hok : report.probeOk = true) (hgpu : 0 < limits.workerGpuMb)
    (hram : 0 < limits.workerRamMb) : ∃ plan, planCapacity report limits = some plan ∧
      plan.gpuWorkerCapacity = min (max 0 limits.maxWorkers)
        (budgetsIn (freestMb report.gpus) limits.gpuReserveMb limits.workerGpuMb) ∧
      plan.gpuWorkerCapacity + plan.cpuWorkerCapacity = min (max 0 limits.maxWorkers)
        (budgetsIn (freestMb report.gpus) limits.gpuReserveMb limits.workerGpuMb +
          budgetsIn (bytesToMb report.ram.availableBytes) limits.ramReserveMb
            limits.workerRamMb) := by
  have h0 : 0 ≤ max 0 limits.maxWorkers := le_max_left _ _
  have hc : CInt.IsInt (max 0 limits.maxWorkers) := by
    obtain ⟨-, hlt⟩ := limits.maxWorkers_int
    exact ⟨by omega, by omega⟩
  obtain ⟨cards, hcards, hcapacity⟩ := planGpus_capacity hok hgpu h0
  obtain ⟨cards', hcards', hplanned, -⟩ := planGpus_spec report limits h0
  obtain rfl : cards = cards' := Option.some.inj (hcards.symm.trans hcards')
  obtain ⟨plan, hplan, hkept, hcpu⟩ := planRam_capacity report hc hram hplanned
  have hq : 0 ≤ budgetsIn (bytesToMb report.ram.availableBytes) limits.ramReserveMb
      limits.workerRamMb := budgetsIn_nonneg hram
  refine ⟨plan, ?_, hkept.trans hcapacity, ?_⟩
  · simp only [planCapacity, hcards, Option.bind_eq_bind, Option.bind_some, hplan]
  · rw [hcpu, hkept, hcapacity]
    omega

/-- With more room in a plan no fewer workers are started. -/
theorem placeableWorkerCount_mono {plan plan' : CapacityPlan}
    (hsum : CInt.IsInt (plan.gpuWorkerCapacity + plan.cpuWorkerCapacity))
    (hsum' : CInt.IsInt (plan'.gpuWorkerCapacity + plan'.cpuWorkerCapacity))
    (hle : plan.gpuWorkerCapacity + plan.cpuWorkerCapacity ≤
      plan'.gpuWorkerCapacity + plan'.cpuWorkerCapacity) (n : ℤ) :
    ∃ k k', placeableWorkerCount plan n = some k ∧ placeableWorkerCount plan' n = some k' ∧
      k ≤ k' := by
  unfold placeableWorkerCount
  by_cases hn : n ≤ 0
  · rw [if_pos hn, if_pos hn]
    exact ⟨0, 0, rfl, rfl, le_rfl⟩
  · rw [if_neg hn, if_neg hn, CInt.int_eq hsum, CInt.int_eq hsum']
    refine ⟨_, _, rfl, rfl, ?_⟩
    dsimp only
    split_ifs <;> omega

/-- The second machine has for every card one with at least as much free memory and has at least
as much memory available, and its limits ask for no more, with budgets that are still positive. -/
structure Roomier (report report' : HardwareReport) (limits limits' : CapacityLimits) : Prop where
  probed : report.probeOk = true
  probed' : report'.probeOk = true
  maxWorkers : limits'.maxWorkers = limits.maxWorkers
  cards : ∀ card ∈ report.gpus, ∃ card' ∈ report'.gpus, card.freeBytes ≤ card'.freeBytes
  available : report.ram.availableBytes ≤ report'.ram.availableBytes
  gpuReserve : limits'.gpuReserveMb ≤ limits.gpuReserveMb
  ramReserve : limits'.ramReserveMb ≤ limits.ramReserveMb
  workerGpu : limits'.workerGpuMb ≤ limits.workerGpuMb
  workerRam : limits'.workerRamMb ≤ limits.workerRamMb
  workerGpu_pos : 0 < limits'.workerGpuMb
  workerRam_pos : 0 < limits'.workerRamMb

/-- With more room no fewer workers fit on the card, and for no configured count are fewer
started. -/
theorem more_room_no_fewer_workers (h : Roomier report report' limits limits') :
    ∃ plan plan', planCapacity report limits = some plan ∧
      planCapacity report' limits' = some plan' ∧
      plan.gpuWorkerCapacity ≤ plan'.gpuWorkerCapacity ∧
      ∀ n, ∃ k k', placeableWorkerCount plan n = some k ∧
        placeableWorkerCount plan' n = some k' ∧ k ≤ k' := by
  have hgpuPos : 0 < limits.workerGpuMb := lt_of_lt_of_le h.workerGpu_pos h.workerGpu
  have hramPos : 0 < limits.workerRamMb := lt_of_lt_of_le h.workerRam_pos h.workerRam
  obtain ⟨plan, hplan, hgpu, hsum⟩ := planCapacity_capacities h.probed hgpuPos hramPos
  obtain ⟨plan', hplan', hgpu', hsum'⟩ :=
    planCapacity_capacities h.probed' h.workerGpu_pos h.workerRam_pos
  rw [h.maxWorkers] at hgpu' hsum'
  have hcard := budgetsIn_mono (freestMb_mono h.cards) h.gpuReserve h.workerGpu h.workerGpu_pos
  have hhost := budgetsIn_mono (bytesToMb_mono h.available) h.ramReserve h.workerRam
    h.workerRam_pos
  have hcard0 : 0 ≤ budgetsIn (freestMb report.gpus) limits.gpuReserveMb limits.workerGpuMb :=
    budgetsIn_nonneg hgpuPos
  have hhost0 : 0 ≤ budgetsIn (bytesToMb report.ram.availableBytes) limits.ramReserveMb
      limits.workerRamMb := budgetsIn_nonneg hramPos
  obtain ⟨-, hmax⟩ := limits.maxWorkers_int
  refine ⟨plan, plan', hplan, hplan', ?_, fun n => ?_⟩
  · rw [hgpu, hgpu']
    exact min_le_min_left _ hcard
  · apply placeableWorkerCount_mono
    · exact ⟨by omega, by omega⟩
    · exact ⟨by omega, by omega⟩
    · rw [hsum, hsum']
      exact min_le_min_left _ (add_le_add hcard hhost)

/-- A second card, less in reserve and a smaller budget, from two workers on the card to seven. -/
theorem more_room_no_fewer_workers_secondCard :
    ∃ plan plan',
      planCapacity
        { gpus := [{ name := "CUDA0", freeBytes := 6144 * 1048576 }]
          ram := { availableBytes := 8192 * 1048576 }
          probeOk := true }
        { maxWorkers := 8, gpuReserveMb := 2048 } = some plan ∧
      planCapacity
        { gpus := [{ name := "CUDA0", freeBytes := 6144 * 1048576 },
            { name := "CUDA1", freeBytes := 7168 * 1048576 }]
          ram := { availableBytes := 8192 * 1048576 }
          probeOk := true }
        { maxWorkers := 8, gpuReserveMb := 0, workerGpuMb := 1024 } = some plan' ∧
      plan.gpuWorkerCapacity ≤ plan'.gpuWorkerCapacity ∧
      ∀ n, ∃ k k', placeableWorkerCount plan n = some k ∧
        placeableWorkerCount plan' n = some k' ∧ k ≤ k' := by
  apply more_room_no_fewer_workers
  constructor
  case cards =>
    intro card hcard
    exact ⟨card, List.mem_append_left _ hcard, UInt64.le_refl _⟩
  all_goals decide

end ServeInfer.Hardware
