import ServeInfer.Supervisor.Types

/-!
# The supervisor's methods

Each method as the source computes it, on the tables, the children and the
backlog. What the operating system answers to a call (a pid, a reading of a
clock, a readable log) is an argument.
-/

namespace ServeInfer.Supervisor

/-- What `fork` returns to the parent, if it succeeds, and the clock read after it. -/
structure Fork where
  pid : Option ℕ
  now : ℤ := 0
  deriving DecidableEq, Repr

/-- The readings `handleCrash` takes: clocks, whether the crash log opens for writing and for
reading, the answers to its forks, and a model cache's new nonce. -/
structure Readings where
  steadyNow : ℤ := 0
  loggedAt : ℤ := 0
  checkedAt : ℤ := 0
  logWritable : Bool := true
  logReadable : Bool := true
  reassignFork : Fork := { pid := none }
  fork : Fork := { pid := none }
  runNonce : ℕ := 0
  deriving DecidableEq, Repr

def circuitKeyModelCache : ℤ := -1001
def circuitKeyApiServer : ℤ := -1002

namespace State

def log (s : State) (e : Event) : State := { s with trace := s.trace ++ [e] }

def enter (s : State) (phase : Phase) : State := { s with phase := phase }

def pids (s : State) : List ℕ := s.children.map Child.pid

/-- The unreaped child that has the pid. -/
def serialOf (s : State) (pid : ℕ) : Option ℕ :=
  (s.children.find? fun c => c.pid = pid).map Child.serial

/-- The process that stands for the worker id at present. -/
def owner (s : State) (workerId : ℤ) : Option ℕ :=
  (s.workerPidById.get? workerId).bind s.serialOf

/-- `forkExec`; the pid of an unreaped child is no answer to `fork` and counts as a failure. -/
def forkExec (s : State) (pid : Option ℕ) (child : Child) : Option ℕ × State :=
  match pid with
  | none => (none, s)
  | some pid =>
      if pid ∈ s.pids then (none, s)
      else
        (some pid, { s with
          children := s.children ++ [{ child with serial := s.forks, pid := pid }]
          forks := s.forks + 1 })

def notifyApiServer (s : State) (notice : Notice) (workerId : ℤ) : State :=
  s.log (.notified notice workerId)

def startModelCache (s : State) (fork : Fork) (runNonce : ℕ) : Bool × State :=
  let s := { s with runNonce := runNonce }
  match s.forkExec fork.pid { serial := 0, pid := 0, type := .modelCache, runNonce := runNonce } with
  | (none, s) => (false, s)
  | (some pid, s) =>
      (true, { s with
        processesByPid := s.processesByPid.set pid { pid := pid, type := .modelCache } })

def startApiServer (s : State) (fork : Fork) : Bool × State :=
  match s.forkExec fork.pid { serial := 0, pid := 0, type := .apiServer } with
  | (none, s) => (false, s)
  | (some pid, s) =>
      (true, { s with
        processesByPid := s.processesByPid.set pid { pid := pid, type := .apiServer } })

def assignmentFor (s : State) (workerId : ℤ) : Option WorkerAssignment :=
  s.assignments.find? fun assignment => assignment.workerId = workerId

/-- A worker process, with the backend of its assignment in its environment. -/
def newWorker (s : State) (workerId : ℤ) : Child where
  serial := 0
  pid := 0
  type := .worker
  workerId := workerId
  backend := (s.assignmentFor workerId).map WorkerAssignment.backend

def startWorker (s : State) (workerId : ℤ) (fork : Fork) : Bool × State :=
  match s.forkExec fork.pid (s.newWorker workerId) with
  | (none, s) => (false, s)
  | (some pid, s) =>
      (true, { s with
        processesByPid :=
          s.processesByPid.set pid { pid := pid, type := .worker, workerId := workerId }
        workerPidById := s.workerPidById.set workerId pid
        workerHealthById := s.workerHealthById.set workerId { spawnedAtMs := fork.now }
        trace := s.trace ++ [.spawned (s.forks - 1) workerId fork.now] })

/-- `applyWorkerReassignment` with the hooks of `handleWorkerReassignment`; true when the
outcome is `kRestarted`. -/
def handleWorkerReassignment (s : State) (info : ProcessInfo) (status : ℕ) (fork : Fork) :
    Bool × State :=
  if info.type ≠ .worker ∨ info.workerId < 0 ∨ exitCode? status ≠ some reassignCpu ∨
      s.running = false then (false, s)
  else
    match s.assignments.findIdx? fun assignment => assignment.workerId = info.workerId with
    | none => (false, s)
    | some i =>
        match s.assignments[i]? with
        | some ⟨_, .cuda, _, _⟩ =>
            let reason := "device fault on cuda: released model and context, re-exec is the " ++
              "only way to give back the cuda primary context"
            let s := { s with assignments := s.assignments.modify i (demoteToCpu · reason) }
            let s := s.notifyApiServer .workerCrashed info.workerId
            match s.startWorker info.workerId fork with
            | (false, s) => (false, s)
            | (true, s) => (true, s.notifyApiServer .workerRestarted info.workerId)
        | _ => (false, s)

def writeCrashLog (s : State) (info : ProcessInfo) (status : ℕ) (r : Readings) : State :=
  if r.logWritable then
    { s with crashLog :=
        s.crashLog ++ [crashLine r.loggedAt info.pid info.type info.workerId status] }
  else s

/-- `circuitBreaker_.registerCrash(key) || crashLimitOpenFromDisk(info)`. -/
def registerCrash (s : State) (key : ℤ) (info : ProcessInfo) (r : Readings) : Bool × State :=
  let (tripped, breaker) := s.circuitBreaker.registerCrash key r.steadyNow
  let s := { s with circuitBreaker := breaker }
  (tripped || r.logReadable &&
    crashLimitOpenFromDisk s.crashLog info.type info.workerId r.checkedAt, s)

/-- What `handleCrash` does once the crash is logged and the supervisor is to go on. -/
def restartCrashed (s : State) (info : ProcessInfo) (r : Readings) : State :=
  match info.type with
  | .worker =>
      match (s.notifyApiServer .workerCrashed info.workerId).registerCrash info.workerId info r with
      | (true, s) => s
      | (false, s) =>
          match s.startWorker info.workerId r.fork with
          | (false, s) => s
          | (true, s) => s.notifyApiServer .workerRestarted info.workerId
  | .modelCache =>
      match s.registerCrash circuitKeyModelCache info r with
      | (true, s) => s
      | (false, s) =>
          match s.startModelCache r.fork r.runNonce with
          | (false, s) => s
          | (true, s) => s.enter .cacheReady
  | .apiServer =>
      match s.registerCrash circuitKeyApiServer info r with
      | (true, s) => s
      | (false, s) => (s.startApiServer r.fork).2

/-- The tables without a reaped process. -/
def forget (s : State) (info : ProcessInfo) : State :=
  let s := { s with processesByPid := s.processesByPid.delete info.pid }
  if info.type = .worker ∧ info.workerId ≥ 0 then
    { s with
      workerPidById := s.workerPidById.delete info.workerId
      workerHealthById := s.workerHealthById.delete info.workerId }
  else s

/-- `handleCrash`; `waitForModelReady` and what follows it are phases of their own. -/
def handleCrash (s : State) (pid status : ℕ) (r : Readings) : State :=
  match s.processesByPid.get? pid with
  | none => s
  | some info =>
      let s := s.forget info
      if exitCode? status = some 0 then s
      else
        match s.handleWorkerReassignment info status r.reassignFork with
        | (true, s) => s
        | (false, s) =>
            let s := s.writeCrashLog info status r
            if s.running = false then s else s.restartCrashed info r

/-- The child is reaped: its pid is free again. -/
def unlist (s : State) (pid : ℕ) : State :=
  { s with children := s.children.filter fun c => c.pid ≠ pid }

/-- `recordHeartbeat`; a worker id without a record gets one. -/
def recordHeartbeat (s : State) (sender : ℕ) (workerId busyMs now : ℤ) : State :=
  let health := (s.workerHealthById.get? workerId).getD {}
  { s with
    workerHealthById :=
      s.workerHealthById.set workerId { health with lastHeartbeatMs := now, busyMs := busyMs }
    trace := s.trace ++ [.heard sender workerId (s.owner workerId) busyMs now] }

/-- One line of an accepted connection. -/
def readLine (now : ℤ) (sender : ℕ) (s : State) (line : List Char) : State :=
  match parseHeartbeat line with
  | none => s
  | some (workerId, busyMs) => s.recordHeartbeat sender workerId busyMs now

/-- The body of `drainSupervisorSocket`'s loop. The clock is read at every heartbeat, and here once:
a connection carries one line. The empty rest behind the last newline is no heartbeat. -/
def readConnection (s : State) (conn : Connection) (now : ℤ) : State :=
  (conn.text.splitOn '\n').foldl (readLine now conn.sender) s

/-- The body of `checkWorkerLiveness`'s loop. -/
def checkWorker (limits : LivenessLimits) (now : ℤ) (s : State) (entry : ℤ × ℕ) : State :=
  match s.workerHealthById.get? entry.1 with
  | none => s
  | some health =>
      match classifyWorker now health limits with
      | .healthy => s
      | .starting => s
      | verdict =>
          { s with
            workerHealthById :=
              s.workerHealthById.set entry.1 { health with lastHeartbeatMs := now, busyMs := 0 }
            trace := s.trace ++ [.killed (s.serialOf entry.2) entry.1 verdict now] }

def checkWorkerLiveness (s : State) (limits : LivenessLimits) (now : ℤ) : State :=
  s.workerPidById.entries.foldl (checkWorker limits now) s

/-- The first half of `restartWorkersAfterModelCacheRestart`, for a worker that has a pid. -/
def stopWorker (s : State) (workerId : ℕ) (pid : ℕ) : State :=
  { s with
    children := s.children.filter fun c => c.pid ≠ pid
    processesByPid := s.processesByPid.delete pid
    workerPidById := s.workerPidById.delete workerId }

/-- The second half, for a worker that has none. -/
def restartWorker (s : State) (workerId : ℕ) (fork : Fork) : State :=
  match s.startWorker workerId fork with
  | (false, s) => s
  | (true, s) => s.notifyApiServer .workerRestarted workerId

end State

end ServeInfer.Supervisor
