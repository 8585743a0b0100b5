import ServeInfer.Hardware.ReportRoundTrip
import ServeInfer.Supervisor.OneProcess

/-!
# What the supervisor finds out about the machine

A child of the worker's binary looks for devices and writes its report; the supervisor plans with
what it can read of it. Whatever becomes of that child, the processes of every run fit into the
memory of the card it has told of, and without a report none of them sees a card.
-/

namespace ServeInfer.Supervisor

open Hardware (CapacityLimits CapacityPlan GpuDevice HardwareReport HostMemory bytesToMb
  hardwareReportToJson parseHardwareReport)

section Probe

/-- What stands behind one of the two names on a line of `/proc/meminfo`. -/
def kilobytes (rest : List Char) : Option (List Char) :=
  let value := rest.dropWhile Text.isSpace
  let digits := value.takeWhile Char.isDigit
  let unit := value.dropWhile Char.isDigit
  if rest.head?.all (!Text.isSpace ·) || digits.isEmpty || unit.head?.all (!Text.isSpace ·) then none
  else if "kB".toList.isPrefixOf (unit.dropWhile Text.isSpace) then some digits
  else none

def readMeminfoLine (memory : HostMemory) (line : List Char) : HostMemory :=
  let size (name : String) : Option UInt64 := do
    let digits ← kilobytes (← line.dropPrefix? name.toList)
    return (← Hardware.stoull digits) * 1024
  match size "MemTotal:" with
  | some bytes => { memory with totalBytes := bytes }
  | none =>
      match size "MemAvailable:" with
      | some bytes => { memory with availableBytes := bytes }
      | none => memory

/-- `readHostMemory` of the file's text, if it can be opened. -/
def readHostMemory (meminfo : Option (List Char)) : HostMemory :=
  match meminfo with
  | none => {}
  | some text => (text.splitOn '\n').foldl readMeminfoLine {}

example : readHostMemory (some "MemTotal: 16 kB\nMemFree: 9 kB\nMemAvailable:\t8 kB".toList) =
    { totalBytes := 16384, availableBytes := 8192 } := by
  decide +kernel

/-- A device of `ggml`; its name and description may be null. -/
structure ProbeDevice where
  isGpu : Bool
  name : Option String
  description : Option String
  freeBytes : UInt64
  totalBytes : UInt64

/-- The entry of a device, which may be null, in the report. -/
def probeDevice (device : Option ProbeDevice) : Option GpuDevice :=
  match device with
  | none => none
  | some device =>
      if device.isGpu then
        some {
          name := device.name.getD ""
          description := device.description.getD ""
          freeBytes := device.freeBytes
          totalBytes := device.totalBytes }
      else none

/-- `probeHardware`, with the devices that `ggml` has registered. -/
def probeHardware (meminfo : Option (List Char)) (devices : List (Option ProbeDevice)) :
    HardwareReport :=
  let gpus := devices.filterMap probeDevice
  { gpus := gpus
    ram := readHostMemory meminfo
    note :=
      if gpus.isEmpty then
        "ggml registered " ++ toString devices.length ++ " device(s), none of them a gpu"
      else "ggml registered " ++ toString gpus.length ++ " gpu device(s)"
    probeOk := true }

/-- What `runHardwareProbe` prints. -/
def probeOutput (report : HardwareReport) : List Char := hardwareReportToJson report ++ ['\n']

/-- What becomes of the probing child. -/
inductive ProbeFate
  | pipeFailed (reason : String)
  | forkFailed (reason : String)
  | timedOut
  | ended (status : ℕ) (output : List Char)

/-- `runHardwareProbeChild`, given the supervisor's own reading of the memory. -/
def runHardwareProbeChild (ram : HostMemory) (timeoutMs : ℤ) : ProbeFate → HardwareReport
  | .pipeFailed reason => { ram := ram, note := "pipe for hardware probe failed: " ++ reason }
  | .forkFailed reason => { ram := ram, note := "fork for hardware probe failed: " ++ reason }
  | .timedOut =>
      { ram := ram, note := "hardware probe timed out after " ++ toString timeoutMs ++ "ms" }
  | .ended status output =>
      if exitCode? status ≠ some 0 then
        { ram := ram
          note := "hardware probe exited " ++ String.ofList (statusToReason status) }
      else
        match parseHardwareReport output with
        | none => { ram := ram, note := "hardware probe emitted output this build cannot parse" }
        | some parsed => { parsed with ram := ram }

end Probe

variable {ram : HostMemory} {timeoutMs : ℤ} {limits : CapacityLimits} {plan : CapacityPlan}
  {cfg : Config} {report : HardwareReport} {s : State} {as : List Action}

/-- The child's output is read, the line end included. -/
theorem parse_probeOutput (report : HardwareReport) :
    parseHardwareReport (probeOutput report) = some report.escaped := by
  rw [probeOutput, Hardware.hardwareReportToJson_reportTo, ← Hardware.reportTo_append]
  exact Hardware.parseHardwareReport_reportTo report _

/-- No card is planned for without a report and a budget. -/
theorem planned_gpus {ceiling : ℤ} {cards : CapacityPlan}
    (h : Hardware.planGpus report limits ceiling = some cards) (hpos : 0 < cards.gpuWorkerCapacity) :
    report.probeOk = true ∧ 0 < limits.workerGpuMb := by
  unfold Hardware.planGpus at h
  cases hok : report.probeOk with
  | false =>
      rw [hok] at h
      obtain rfl := Option.some.inj h
      exact absurd hpos (lt_irrefl 0)
  | true =>
      refine ⟨rfl, ?_⟩
      rw [hok] at h
      by_contra hbudget
      have husable : Hardware.budgetUsable limits.workerGpuMb = false := by
        simpa [Hardware.budgetUsable] using hbudget
      cases hgpus : report.gpus with
      | nil =>
          rw [hgpus] at h
          obtain rfl := Option.some.inj h
          exact absurd hpos (lt_irrefl 0)
      | cons first rest =>
          rw [hgpus] at h
          obtain ⟨ordinal, hordinal⟩ := Option.isSome_iff_exists.mp
            (Hardware.deviceOrdinalFromName_isSome (Hardware.bestGpu first rest).1.name
              (CInt.toInt (Hardware.bestGpu first rest).2))
          simp only [Hardware.planCard, hordinal, Hardware.long_sub_reserve limits.gpuReserveMb_long,
            Option.bind_eq_bind, Option.bind_some, husable, Bool.not_true, Bool.not_false,
            Bool.false_eq_true, if_false, if_true] at h
          obtain rfl := Option.some.inj h
          exact absurd hpos (lt_irrefl 0)

/-- There is a plan for every report; its card has room for the workers that see it. -/
theorem exists_plan (report : HardwareReport) (limits : CapacityLimits) :
    ∃ plan, Hardware.planCapacity report limits = some plan ∧ 0 ≤ plan.gpuWorkerCapacity ∧
      0 ≤ plan.cpuWorkerCapacity ∧
      plan.gpuWorkerCapacity + plan.cpuWorkerCapacity ≤ max 0 limits.maxWorkers ∧
      (0 < plan.gpuWorkerCapacity → (report.probeOk = true ∧ 0 < limits.workerGpuMb) ∧
        ∃ card ∈ report.gpus, (∀ gpu ∈ report.gpus, gpu.freeBytes ≤ card.freeBytes) ∧
          Hardware.FitsCard limits plan card) := by
  have h0 : 0 ≤ max 0 limits.maxWorkers := le_max_left _ _
  have hc : CInt.IsInt (max 0 limits.maxWorkers) := by
    obtain ⟨-, hlt⟩ := limits.maxWorkers_int
    exact ⟨by omega, by omega⟩
  obtain ⟨cards, hcards, hplanned, hfits⟩ := Hardware.planGpus_spec report limits h0
  obtain ⟨plan, hplan, hgpu, hkept, hcpu, hsum, -⟩ := Hardware.planRam_spec report hc hplanned
  refine ⟨plan, ?_, hgpu ▸ hplanned.nonneg, hcpu, hsum, fun hpos => ⟨?_, ?_⟩⟩
  · simp only [Hardware.planCapacity, hcards, Option.bind_eq_bind, Option.bind_some, hplan]
  · exact planned_gpus hcards (hgpu ▸ hpos)
  · obtain ⟨card, hmem, hmax, hfit⟩ := hfits (hgpu ▸ hpos)
    exact ⟨card, hmem, hmax, hkept card hfit⟩

/-- Discovery comes off for every report and every count. -/
theorem exists_discovered (report : HardwareReport) (limits : CapacityLimits)
    (liveness : LivenessLimits) {n : ℕ} (hn : limits.maxWorkers = n) :
    ∃ cfg plan, cfg.workerCount = n ∧ cfg.liveness = liveness ∧
      Discovered report limits cfg plan := by
  obtain ⟨plan, hplan, hgpu, hcpu, hsum, -⟩ := exists_plan report limits
  have hlt : n < 2 ^ 31 := by
    have hint := limits.maxWorkers_int.2
    omega
  have hint : CInt.IsInt (plan.gpuWorkerCapacity + plan.cpuWorkerCapacity) :=
    ⟨by omega, by omega⟩
  obtain ⟨k, hk, hk0, hkn, -⟩ := Hardware.placeableWorkerCount_spec plan n hint (by omega)
  have hcast : (k.toNat : ℤ) = k := Int.toNat_of_nonneg hk0
  refine ⟨{
    workerCount := n
    effectiveWorkerCount := k.toNat
    effective_le := by omega
    workerCount_lt := hlt
    assignments := Hardware.assignWorkers plan k
    liveness := liveness }, plan, rfl, rfl, hn, hplan, ?_, ?_⟩
  · exact hk.trans (congrArg some hcast.symm)
  · rw [hcast]

/-- No more live workers see the card than the plan has room for. -/
theorem liveCuda_le_capacity (hplan : Discovered report limits cfg plan)
    (hrun : Machine.exec (step cfg) (init cfg) as = some s) :
    s.liveCuda ≤ plan.gpuWorkerCapacity.toNat := by
  have hroster := ((State.manned_init cfg).exec hrun).roster
  have hdemoted : OnlyDemoted cfg.assignments s.assignments :=
    (State.manned_init cfg).onlyDemoted hrun
  have hids : s.assignments.map WorkerAssignment.workerId =
      (List.range cfg.effectiveWorkerCount).map fun (i : ℕ) => (i : ℤ) := by
    rw [hdemoted.workerIds, hplan.assignments, Hardware.workerId_assignWorkers, Int.toNat_natCast]
  calc
    s.liveCuda ≤ s.assignments.countP fun a => a.backend = .cuda := hroster.liveCuda_le hids
    _ ≤ cfg.assignments.countP fun a => a.backend = .cuda := hdemoted.countP_cuda
    _ = min cfg.effectiveWorkerCount plan.gpuWorkerCapacity.toNat := by
      rw [hplan.assignments, Hardware.countP_cuda_assignWorkers, Int.toNat_natCast]
    _ ≤ plan.gpuWorkerCapacity.toNat := Nat.min_le_right _ _

/-- The live workers that see a card, and the reserve, fit into what was free on it. -/
theorem fits_of_liveCuda (hplan : Discovered report limits cfg plan)
    (hrun : Machine.exec (step cfg) (init cfg) as = some s) :
    s.liveCuda = 0 ∨ report.probeOk = true ∧ ∃ card ∈ report.gpus,
      (∀ gpu ∈ report.gpus, gpu.freeBytes ≤ card.freeBytes) ∧
        s.liveCuda * limits.workerGpuMb + max 0 limits.gpuReserveMb ≤ bytesToMb card.freeBytes := by
  have hle := liveCuda_le_capacity hplan hrun
  obtain ⟨plan', hplan', hgpu, -, -, hcard⟩ := exists_plan report limits
  obtain rfl : plan' = plan := Option.some.inj (hplan'.symm.trans hplan.planned)
  rcases Nat.eq_zero_or_pos s.liveCuda with hnone | hpos
  · exact .inl hnone
  · obtain ⟨⟨hok, hbudget⟩, card, hmem, hmax, hfit⟩ := hcard (by omega)
    have hmul : (s.liveCuda : ℤ) * limits.workerGpuMb ≤
        plan'.gpuWorkerCapacity * limits.workerGpuMb :=
      mul_le_mul_of_nonneg_right (by omega) hbudget.le
    refine .inr ⟨hok, card, hmem, hmax, ?_⟩
    calc
      s.liveCuda * limits.workerGpuMb + max 0 limits.gpuReserveMb ≤
          plan'.gpuWorkerCapacity * limits.workerGpuMb + max 0 limits.gpuReserveMb :=
        Int.add_le_add_right hmul _
      _ ≤ bytesToMb card.freeBytes := hfit.fits

variable {devices : List (Option ProbeDevice)}

theorem exists_device {gpu : GpuDevice} (h : gpu ∈ devices.filterMap probeDevice) :
    ∃ device, some device ∈ devices ∧ device.isGpu = true ∧ device.freeBytes = gpu.freeBytes := by
  obtain ⟨entry, hentry, hgpu⟩ := List.mem_filterMap.mp h
  cases entry with
  | none => cases hgpu
  | some device =>
      rw [probeDevice] at hgpu
      split at hgpu
      case isTrue hdevice =>
        cases hgpu
        exact ⟨device, hentry, hdevice, rfl⟩
      case isFalse => cases hgpu

theorem exists_entry {device : ProbeDevice} (h : some device ∈ devices)
    (hdevice : device.isGpu = true) :
    ∃ gpu ∈ devices.filterMap probeDevice, gpu.freeBytes = device.freeBytes := by
  have hsome : probeDevice (some device) = some {
      name := device.name.getD ""
      description := device.description.getD ""
      freeBytes := device.freeBytes
      totalBytes := device.totalBytes } := by
    rw [probeDevice, if_pos hdevice]
  exact ⟨_, List.mem_filterMap.mpr ⟨_, h, hsome⟩, rfl⟩

/-- What is read of a child that does its work. -/
theorem gpus_of_probe (meminfo : Option (List Char)) (devices : List (Option ProbeDevice)) :
    (runHardwareProbeChild ram timeoutMs
      (.ended 0 (probeOutput (probeHardware meminfo devices)))).gpus =
        (devices.filterMap probeDevice).map GpuDevice.escaped := by
  have hexit : exitCode? 0 = some 0 := by decide
  rw [runHardwareProbeChild, if_neg (fun h => h hexit), parse_probeOutput]
  rfl

/-- A report that says it is one has been read. -/
theorem read_of_probeOk {fate : ProbeFate}
    (hok : (runHardwareProbeChild ram timeoutMs fate).probeOk = true) :
    ∃ status output, fate = .ended status output ∧ exitCode? status = some 0 ∧
      parseHardwareReport output ≠ none := by
  cases fate with
  | pipeFailed reason => cases hok
  | forkFailed reason => cases hok
  | timedOut => cases hok
  | ended status output =>
      refine ⟨status, output, rfl, ?_⟩
      rw [runHardwareProbeChild] at hok
      split at hok
      case isTrue => cases hok
      case isFalse hexit =>
        refine ⟨not_not.mp hexit, ?_⟩
        intro hnone
        rw [hnone] at hok
        cases hok

/-- A card with room for one worker, behind the device of the processor. -/
def cardDevices : List (Option ProbeDevice) :=
  [some ⟨false, some "CPU", none, 8589934592, 8589934592⟩,
    some ⟨true, some "CUDA0", some "card \"0\"", 3221225472, 4294967296⟩]

end ServeInfer.Supervisor
