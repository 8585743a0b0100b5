import ServeInfer.Hardware.ReportJson
import ServeInfer.Supervisor.CrashLog

/-!
# The published configuration

The file in which the supervisor says, before it starts a worker, how many workers it
will start. It is put together by hand, with an escaper in each of the three files that
the text comes from.
-/

namespace ServeInfer.Hardware

open Supervisor (WorkerAssignment)

/-- A turn of the loop of `jsonEscape` in the capacity plan's file. -/
def CapacityPlan.escape (ch : Char) : List Char :=
  if ch = '"' then ['\\', '"']
  else if ch = '\\' then ['\\', '\\']
  else if ch = '\n' then ['\\', 'n']
  else if ch = '\r' then ['\\', 'r']
  else if ch = '\t' then ['\\', 't']
  else [ch]

/-- `jsonEscape` in the capacity plan's file. -/
def CapacityPlan.jsonEscape (input : String) : List Char := input.toList.flatMap escape

def capacityPlanToJson (plan : CapacityPlan) : List Char :=
  "\x7b".toList ++
    "\"gpuWorkerCapacity\":".toList ++ Text.decimal plan.gpuWorkerCapacity ++
    ",\"cpuWorkerCapacity\":".toList ++ Text.decimal plan.cpuWorkerCapacity ++
    ",\"totalVramMb\":".toList ++ Text.decimal plan.totalVramMb ++
    ",\"freeVramMb\":".toList ++ Text.decimal plan.freeVramMb ++
    ",\"usableGpuMb\":".toList ++ Text.decimal plan.usableGpuMb ++
    ",\"totalRamMb\":".toList ++ Text.decimal plan.totalRamMb ++
    ",\"availableRamMb\":".toList ++ Text.decimal plan.availableRamMb ++
    ",\"usableRamMb\":".toList ++ Text.decimal plan.usableRamMb ++
    ",\"gpuName\":\"".toList ++ CapacityPlan.jsonEscape plan.gpuName ++ "\"".toList ++
    ",\"gpuIndex\":".toList ++ Text.decimal plan.gpuIndex ++
    ",\"gpuReason\":\"".toList ++ CapacityPlan.jsonEscape plan.gpuReason ++ "\"".toList ++
    ",\"cpuReason\":\"".toList ++ CapacityPlan.jsonEscape plan.cpuReason ++ "\"".toList ++
    "\x7d".toList

/-- A turn of the loop of `workerAssignmentsToJson`, its comma apart. -/
def assignmentToJson (assignment : WorkerAssignment) : List Char :=
  "\x7b\"workerId\":".toList ++ Text.decimal assignment.workerId ++
    ",\"backend\":\"".toList ++ assignment.backend.name.toList ++ "\"".toList ++
    ",\"gpuIndex\":".toList ++ Text.decimal assignment.gpuIndex ++
    ",\"reason\":\"".toList ++ CapacityPlan.jsonEscape assignment.reason ++ "\"".toList ++
    "\x7d".toList

def workerAssignmentsToJson (assignments : List WorkerAssignment) : List Char :=
  "[".toList ++ [','].intercalate (assignments.map assignmentToJson) ++ "]".toList

end ServeInfer.Hardware

namespace ServeInfer.Supervisor

open Hardware (HardwareReport CapacityPlan)

/-- What `writeModelConfig` reads of the supervisor. -/
structure ModelConfig where
  modelPath : String
  shmName : String
  workerCount : ℤ
  pollIntervalMs : ℤ
  hardware : HardwareReport
  plan : CapacityPlan
  effectiveWorkerCount : ℤ
  assignments : List WorkerAssignment
  deriving DecidableEq, Repr

/-- The text of `writeModelConfig`. -/
def writeModelConfig (c : ModelConfig) : List Char :=
  "\x7b\"modelPath\":\"".toList ++ jsonEscape c.modelPath.toList ++ "\",\"shmName\":\"".toList ++
    jsonEscape c.shmName.toList ++ "\",\"workerCount\":".toList ++
    Text.decimal c.effectiveWorkerCount ++
    ",\"configuredWorkerCount\":".toList ++ Text.decimal c.workerCount ++
    ",\"pollIntervalMs\":".toList ++ Text.decimal c.pollIntervalMs ++
    ",\"hardware\":".toList ++ Hardware.hardwareReportToJson c.hardware ++
    ",\"capacity\":".toList ++ Hardware.capacityPlanToJson c.plan ++
    ",\"assignments\":".toList ++ Hardware.workerAssignmentsToJson c.assignments ++
    "\x7d\n".toList

/-- What `discoverHardware` makes of the plan. -/
def ModelConfig.place? (modelPath shmName : String) (workerCount pollIntervalMs : ℤ)
    (hardware : HardwareReport) (plan : CapacityPlan) : Option ModelConfig :=
  (Hardware.placeableWorkerCount plan workerCount).map fun effective => {
    modelPath := modelPath
    shmName := shmName
    workerCount := workerCount
    pollIntervalMs := pollIntervalMs
    hardware := hardware
    plan := plan
    effectiveWorkerCount := effective
    assignments := Hardware.assignWorkers plan effective }

end ServeInfer.Supervisor
