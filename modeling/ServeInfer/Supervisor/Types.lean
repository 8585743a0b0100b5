import ServeInfer.Supervisor.CrashLog
import ServeInfer.Supervisor.Liveness

/-!
# The supervisor and its children

The supervisor's three tables, the processes the operating system holds for it
and the connections waiting at its socket. A process is numbered when it is
forked: a pid may come back once its process has been reaped, a number does not.
-/

namespace ServeInfer.Supervisor

inductive WorkerBackend
  | cuda
  | cpu
  deriving DecidableEq, Repr

/-- `workerBackendName`. -/
def WorkerBackend.name : WorkerBackend → String
  | cuda => "cuda"
  | cpu => "cpu"

structure WorkerAssignment where
  workerId : ℤ
  backend : WorkerBackend
  gpuIndex : ℤ
  reason : String
  deriving DecidableEq, Repr

def demoteToCpu (assignment : WorkerAssignment) (reason : String) : WorkerAssignment :=
  { assignment with backend := .cpu, reason := reason }

/-- `EdgeExit::kReassignCpu`. -/
def reassignCpu : ℕ := 70

/-- The configuration with the plan that `discoverHardware` made of it: no more workers than
configured, and ids that fit an `int`. -/
structure Config where
  workerCount : ℕ
  effectiveWorkerCount : ℕ
  effective_le : effectiveWorkerCount ≤ workerCount
  workerCount_lt : workerCount < 2 ^ 31
  assignments : List WorkerAssignment
  liveness : LivenessLimits := {}

/-- `ProcessInfo`; the two singletons have worker id -1. -/
structure ProcessInfo where
  pid : ℕ
  type : ProcessType
  workerId : ℤ := -1
  deriving DecidableEq, Repr

/-- A child that has not been reaped. `backend` and `runNonce` are what it was started with;
`status` is the wait status it left, once it has ended. -/
structure Child where
  serial : ℕ
  pid : ℕ
  type : ProcessType
  workerId : ℤ := -1
  backend : Option WorkerBackend := none
  runNonce : ℕ := 0
  status : Option ℕ := none
  deriving DecidableEq, Repr

/-- A connection in the socket's backlog: who made it, and all that was written before its end
was closed. -/
structure Connection where
  sender : ℕ
  text : List Char
  deriving DecidableEq

/-- The two messages to the api-server. -/
inductive Notice
  | workerCrashed
  | workerRestarted
  deriving DecidableEq, Repr

/-- What the supervisor has done so far. `heard` names the sender of a heartbeat and the process
whose health record it went into; `killed` and `terminated` are the signals sent. -/
inductive Event
  | spawned (serial : ℕ) (workerId now : ℤ)
  | heard (sender : ℕ) (workerId : ℤ) (owner : Option ℕ) (busyMs now : ℤ)
  | killed (victim : Option ℕ) (workerId : ℤ) (verdict : WorkerLiveness) (now : ℤ)
  | terminated (victim : Option ℕ) (workerId : ℤ)
  | notified (notice : Notice) (workerId : ℤ)
  deriving DecidableEq

/-- Where the supervisor is: in `start`, in one of the three ticks of `monitorLoop`, in the
model-cache branch of `handleCrash`, or out of the loop. -/
inductive Phase
  | startCache
  | startReady
  | startApi
  | startWorkers (next : ℕ)
  | reaping
  | cacheReady
  | stopping (next : ℕ)
  | stopped (next : ℕ)
  | restarting (next : ℕ)
  | draining
  | checking
  | sleeping
  | exited
  deriving DecidableEq, Repr

/-- The supervisor's fields, then the children, the backlog and the history. -/
structure State where
  phase : Phase := .startCache
  running : Bool := true
  assignments : List WorkerAssignment
  processesByPid : OrderedMap ℕ ProcessInfo := ∅
  workerPidById : OrderedMap ℤ ℕ := ∅
  workerHealthById : OrderedMap ℤ WorkerHealth := ∅
  circuitBreaker : CircuitBreaker := ∅
  crashLog : List (List Char) := []
  runNonce : ℕ := 0
  children : List Child := []
  forks : ℕ := 0
  backlog : List Connection := []
  trace : List Event := []
  deriving DecidableEq

/-- The supervisor with its socket open and nothing started. -/
def init (cfg : Config) : State where
  assignments := cfg.assignments

end ServeInfer.Supervisor
