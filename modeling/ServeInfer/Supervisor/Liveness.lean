import ServeInfer.Lib.Text

/-!
# Heartbeats and worker liveness

The line a worker's heartbeat thread writes, the supervisor's reading of it and
the verdict on the health record that the readings build up.
-/

namespace ServeInfer.Supervisor

inductive WorkerLiveness
  | healthy
  | starting
  | noHeartbeat
  | stuckRequest
  deriving DecidableEq, Repr

/-- `workerLivenessName`. -/
def WorkerLiveness.name : WorkerLiveness → String
  | healthy => "healthy"
  | starting => "starting"
  | noHeartbeat => "no_heartbeat"
  | stuckRequest => "stuck_request"

structure LivenessLimits where
  startupGraceMs : ℤ := 120000
  heartbeatTimeoutMs : ℤ := 15000
  stuckRequestMs : ℤ := 180000
  deriving DecidableEq, Repr

structure WorkerHealth where
  spawnedAtMs : ℤ := 0
  lastHeartbeatMs : ℤ := 0
  busyMs : ℤ := 0
  deriving DecidableEq, Repr

def classifyWorker (nowMs : ℤ) (health : WorkerHealth) (limits : LivenessLimits) :
    WorkerLiveness :=
  if health.lastHeartbeatMs ≤ 0 then
    if limits.startupGraceMs ≤ 0 ∨ nowMs - health.spawnedAtMs ≤ limits.startupGraceMs then
      .starting
    else .noHeartbeat
  else if limits.heartbeatTimeoutMs > 0 ∧
      nowMs - health.lastHeartbeatMs > limits.heartbeatTimeoutMs then
    .noHeartbeat
  else if limits.stuckRequestMs > 0 ∧ health.busyMs > limits.stuckRequestMs then .stuckRequest
  else .healthy

/-- The key in quotes and the colon behind it, as a number's field begins. -/
def fieldNeedle (key : List Char) : List Char := '"' :: (key ++ ['"', ':'])

def extractNumber (line key : List Char) : Option ℤ :=
  (Text.afterFirst (fieldNeedle key) line).bind Text.strtoll

/-- `static_cast<int>` of a `long long`. -/
def castInt (n : ℤ) : ℤ := n.bmod (2 ^ 32)

/-- `parseHeartbeat`: the worker id and the busy time of the line, if it is a heartbeat. -/
def parseHeartbeat (line : List Char) : Option (ℤ × ℤ) :=
  if Text.contains line "\"type\":\"heartbeat\"".toList then
    match extractNumber line "workerId".toList with
    | some id =>
        if id < 0 then none
        else some (castInt id, (extractNumber line "busyMs".toList).getD 0)
    | none => none
  else none

/-- The names of `kBackends`. -/
def knownBackends : List String :=
  ["cpu", "cuda", "rocm", "vulkan", "npu", "directml", "gpu", "ane", "metal", "accelerate",
    "remote"]

/-- The status a heartbeat reports, by the time its request has run for. -/
def heartbeatStatus : Option ℤ → String
  | none => "ready"
  | some _ => "busy"

/-- The line `heartbeatLoop` sends, up to its newline; the worker is busy when a request is
being timed. -/
def heartbeatLine (workerId : ℤ) (busyMs : Option ℤ) (device : String) : List Char :=
  "\x7b\"type\":\"heartbeat\",\"workerId\":".toList ++ (Text.decimal workerId ++
    (",\"status\":\"".toList ++ (heartbeatStatus busyMs).toList ++
    "\",\"device\":\"".toList ++ device.toList ++ "\",\"busyMs\":".toList ++
    (Text.decimal (busyMs.getD 0) ++ ['}'])))

variable {workerId : ℤ} {busyMs : Option ℤ} {device : String}

theorem castInt_of_lt (h0 : 0 ≤ workerId) (h : workerId < 2 ^ 31) :
    castInt workerId = workerId := by
  unfold castInt
  rw [Int.bmod_def]
  omega

theorem contains_heartbeatLine (workerId : ℤ) (busyMs : Option ℤ) (device : String) :
    Text.contains (heartbeatLine workerId busyMs device) "\"type\":\"heartbeat\"".toList = true :=
  rfl

theorem extractNumber_workerId (h0 : 0 ≤ workerId) (h : workerId < 2 ^ 31) (busyMs : Option ℤ)
    (device : String) :
    extractNumber (heartbeatLine workerId busyMs device) "workerId".toList = some workerId := by
  have hread (rest : List Char) :
      extractNumber ("\x7b\"type\":\"heartbeat\",\"workerId\":".toList ++
        (Text.decimal workerId ++ ',' :: rest)) "workerId".toList = some workerId :=
    Text.strtoll_decimal (by omega) (by omega) rfl rest
  exact hread _

/-- No key or value in front of the busy time is mistaken for it. -/
theorem afterFirst_busyMs (hdev : device ∈ knownBackends) (workerId : ℤ) (busyMs : Option ℤ) :
    Text.afterFirst (fieldNeedle "busyMs".toList) (heartbeatLine workerId busyMs device) =
      some (Text.decimal (busyMs.getD 0) ++ ['}']) := by
  have hid : '"' ∉ Text.decimal workerId := Text.notMem_decimal rfl (by decide) workerId
  have hskip (rest : List Char) :
      Text.afterFirst (fieldNeedle "busyMs".toList)
        ("\x7b\"type\":\"heartbeat\",\"workerId\":".toList ++ (Text.decimal workerId ++ rest)) =
        Text.afterFirst (fieldNeedle "busyMs".toList) rest :=
    Text.afterFirst_skip hid rest
  unfold heartbeatLine
  rw [hskip]
  generalize Text.decimal (busyMs.getD 0) ++ ['}'] = rest
  simp only [knownBackends, List.mem_cons, List.not_mem_nil, or_false] at hdev
  cases busyMs <;> simp only [heartbeatStatus] <;>
    rcases hdev with rfl | rfl | rfl | rfl | rfl | rfl | rfl | rfl | rfl | rfl | rfl <;> rfl

/-- The supervisor reads from a heartbeat line the id and the busy time that were written. -/
theorem parseHeartbeat_heartbeatLine (h0 : 0 ≤ workerId) (h : workerId < 2 ^ 31)
    (hdev : device ∈ knownBackends) (hlo : -2 ^ 63 ≤ busyMs.getD 0)
    (hhi : busyMs.getD 0 < 2 ^ 63) :
    parseHeartbeat (heartbeatLine workerId busyMs device) =
      some (workerId, busyMs.getD 0) := by
  have hbusy : extractNumber (heartbeatLine workerId busyMs device) "busyMs".toList =
      some (busyMs.getD 0) := by
    unfold extractNumber
    rw [afterFirst_busyMs hdev, Option.bind_some]
    exact Text.strtoll_decimal hlo hhi rfl []
  unfold parseHeartbeat
  rw [if_pos (contains_heartbeatLine workerId busyMs device), extractNumber_workerId h0 h, hbusy]
  simp only [castInt_of_lt h0 h, Int.not_lt.mpr h0, if_false, Option.getD_some]

end ServeInfer.Supervisor
