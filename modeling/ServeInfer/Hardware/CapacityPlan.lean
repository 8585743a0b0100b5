import ServeInfer.Lib.CInt
import ServeInfer.Supervisor.Types

/-!
# The capacity plan

How many workers the machine has room for, and what each of them runs on. An
arithmetic operation that would overflow or divide by zero makes the plan `none`.
-/

namespace ServeInfer.Hardware

open Supervisor (WorkerAssignment WorkerBackend)

structure GpuDevice where
  name : String := ""
  description : String := ""
  freeBytes : UInt64 := 0
  totalBytes : UInt64 := 0
  deriving DecidableEq, Repr

structure HostMemory where
  totalBytes : UInt64 := 0
  availableBytes : UInt64 := 0
  deriving DecidableEq, Repr

structure HardwareReport where
  gpus : List GpuDevice := []
  ram : HostMemory := {}
  note : String := ""
  probeOk : Bool := false
  deriving DecidableEq, Repr

/-- An `int` and four values of `long long`. -/
structure CapacityLimits where
  maxWorkers : ℤ := 4
  gpuReserveMb : ℤ := 512
  workerGpuMb : ℤ := 2048
  ramReserveMb : ℤ := 1024
  workerRamMb : ℤ := 1024
  maxWorkers_int : CInt.IsInt maxWorkers := by decide
  gpuReserveMb_long : CInt.IsLong gpuReserveMb := by decide
  workerGpuMb_long : CInt.IsLong workerGpuMb := by decide
  ramReserveMb_long : CInt.IsLong ramReserveMb := by decide
  workerRamMb_long : CInt.IsLong workerRamMb := by decide

structure CapacityPlan where
  gpuWorkerCapacity : ℤ := 0
  cpuWorkerCapacity : ℤ := 0
  totalVramMb : ℤ := 0
  freeVramMb : ℤ := 0
  usableGpuMb : ℤ := 0
  totalRamMb : ℤ := 0
  availableRamMb : ℤ := 0
  usableRamMb : ℤ := 0
  gpuName : String := ""
  gpuIndex : ℤ := 0
  gpuReason : String := ""
  cpuReason : String := ""
  deriving DecidableEq, Repr

def bytesToMb (bytes : UInt64) : ℤ := (bytes / (1024 * 1024)).toNat

def clampToRange (value ceiling : ℤ) : ℤ :=
  if value ≤ 0 then 0 else if ceiling < value then ceiling else value

def budgetUsable (budgetMb : ℤ) : Bool := 0 < budgetMb

def reserveOrZero (reserveMb : ℤ) : ℤ := if 0 < reserveMb then reserveMb else 0

/-- The loop over the digits, which gives up above 1024. -/
def ordinalFrom (fallback : ℤ) : ℤ → List Char → Option ℤ
  | ordinal, [] => some ordinal
  | ordinal, c :: rest => do
      let scaled ← CInt.long (ordinal * 10)
      let ordinal ← CInt.long (scaled + (c.toNat - '0'.toNat : ℕ))
      if 1024 < ordinal then some fallback else ordinalFrom fallback ordinal rest

/-- The digits that the name ends in. -/
def trailingDigits (name : String) : List Char :=
  (name.toList.reverse.takeWhile Char.isDigit).reverse

def deviceOrdinalFromName (name : String) (fallback : ℤ) : Option ℤ :=
  if (trailingDigits name).isEmpty then some fallback
  else ordinalFrom fallback 0 (trailingDigits name)

/-- The first card with the most free memory, and where it stands. -/
def bestGpu (first : GpuDevice) (rest : List GpuDevice) : GpuDevice × ℕ :=
  (rest.zipIdx 1).foldl
    (fun best gpu => if best.1.freeBytes < gpu.1.freeBytes then gpu else best) (first, 0)

/-- The part of `planCapacity` about the card it has chosen. -/
def planCard (limits : CapacityLimits) (ceiling : ℤ) (best : GpuDevice) (position : ℕ) :
    Option CapacityPlan := do
  let gpuIndex ← deviceOrdinalFromName best.name (CInt.toInt position)
  let left ← CInt.long (bytesToMb best.freeBytes - reserveOrZero limits.gpuReserveMb)
  let plan : CapacityPlan := {
    gpuName := if best.description.isEmpty then best.name else best.description
    gpuIndex := gpuIndex
    totalVramMb := bytesToMb best.totalBytes
    freeVramMb := bytesToMb best.freeBytes
    usableGpuMb := max 0 left }
  if !budgetUsable limits.workerGpuMb then
    some { plan with gpuReason := "EDGE_WORKER_GPU_MB is not a positive budget" }
  else if plan.usableGpuMb < limits.workerGpuMb then
    some { plan with
      gpuReason := "usable vram " ++ toString plan.usableGpuMb ++
        "MB is below the per-worker budget " ++ toString limits.workerGpuMb ++ "MB" }
  else
    let quotient ← CInt.divLong plan.usableGpuMb limits.workerGpuMb
    some { plan with
      gpuWorkerCapacity := clampToRange quotient ceiling
      gpuReason := "free " ++ toString plan.freeVramMb ++ "MB - reserve " ++
        toString limits.gpuReserveMb ++ "MB = " ++ toString plan.usableGpuMb ++ "MB usable / " ++
        toString limits.workerGpuMb ++ "MB per worker" }

/-- The first half of `planCapacity`. -/
def planGpus (report : HardwareReport) (limits : CapacityLimits) (ceiling : ℤ) :
    Option CapacityPlan :=
  if !report.probeOk then
    some { gpuReason := "hardware probe did not report: " ++
      if report.note.isEmpty then "no detail" else report.note }
  else
    match report.gpus with
    | [] => some { gpuReason := "no gpu device registered in this build" }
    | first :: rest => planCard limits ceiling (bestGpu first rest).1 (bestGpu first rest).2

/-- The second half of `planCapacity`. -/
def planRam (report : HardwareReport) (limits : CapacityLimits) (ceiling : ℤ)
    (plan : CapacityPlan) : Option CapacityPlan := do
  let slots ← CInt.int (ceiling - plan.gpuWorkerCapacity)
  let left ← CInt.long
    (bytesToMb report.ram.availableBytes - reserveOrZero limits.ramReserveMb)
  let plan := { plan with
    totalRamMb := bytesToMb report.ram.totalBytes
    availableRamMb := bytesToMb report.ram.availableBytes
    usableRamMb := max 0 left }
  if report.ram.availableBytes = 0 then
    some { plan with cpuReason := "available ram unknown, assuming none" }
  else if !budgetUsable limits.workerRamMb then
    some { plan with cpuReason := "EDGE_WORKER_RAM_MB is not a positive budget" }
  else
    let quotient ← CInt.divLong plan.usableRamMb limits.workerRamMb
    some { plan with
      cpuWorkerCapacity := clampToRange quotient (max 0 slots)
      cpuReason := "available " ++ toString plan.availableRamMb ++ "MB - reserve " ++
        toString limits.ramReserveMb ++ "MB = " ++ toString plan.usableRamMb ++ "MB usable / " ++
        toString limits.workerRamMb ++ "MB per worker" }

def planCapacity (report : HardwareReport) (limits : CapacityLimits) : Option CapacityPlan := do
  let plan ← planGpus report limits (max 0 limits.maxWorkers)
  planRam report limits (max 0 limits.maxWorkers) plan

def placeableWorkerCount (plan : CapacityPlan) (configuredCount : ℤ) : Option ℤ :=
  if configuredCount ≤ 0 then some 0
  else
    (CInt.int (plan.gpuWorkerCapacity + plan.cpuWorkerCapacity)).map fun placeable =>
      if configuredCount ≤ placeable then configuredCount
      else if placeable < 1 then 1 else placeable

/-- One round of the loop of `assignWorkers`. -/
def assignWorker (plan : CapacityPlan) (workerId : ℤ) : WorkerAssignment :=
  if workerId < plan.gpuWorkerCapacity then
    { workerId := workerId
      backend := .cuda
      gpuIndex := plan.gpuIndex
      reason := "gpu slot " ++ toString (workerId + 1) ++ " of " ++
        toString plan.gpuWorkerCapacity ++ " (" ++ plan.gpuReason ++ ")" }
  else
    { workerId := workerId
      backend := .cpu
      gpuIndex := 0
      reason :=
        if plan.gpuWorkerCapacity = 0 then "no gpu slot: " ++ plan.gpuReason
        else "gpu capacity " ++ toString plan.gpuWorkerCapacity ++ " already filled" }

def assignWorkers (plan : CapacityPlan) (workerCount : ℤ) : List WorkerAssignment :=
  (List.range workerCount.toNat).map fun (workerId : ℕ) => assignWorker plan workerId

end ServeInfer.Hardware
