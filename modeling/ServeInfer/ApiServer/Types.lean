import Mathlib.Algebra.Order.Ring.Int
import ServeInfer.Lib.Json
import ServeInfer.Lib.OrderedMap

/-!
# The api-server's worker pool: data

The pool's entries, its requests in flight, and by number the runs, the recovery
timers and the probes. A run is what the closures of one `_runRequest` or
`runStreamingInference` call hold.
-/

namespace ServeInfer.ApiServer

/-- A JavaScript string. -/
abbrev JsString := List Utf8.CodeUnit

inductive WorkerStatus
  | starting
  | ready
  | busy
  | crashed
  deriving DecidableEq, Repr

/-- The `code` of a `WorkerPoolError`. -/
inductive ErrorCode
  | workerConnectTimeout
  | workerBadJson
  | workerError
  | workerSocketError
  | workerClosed
  | streamCancelled
  | noReadyWorkers
  | workerCrashed
  deriving DecidableEq, Repr

def ErrorCode.text : ErrorCode → String
  | workerConnectTimeout => "worker_connect_timeout"
  | workerBadJson => "worker_bad_json"
  | workerError => "worker_error"
  | workerSocketError => "worker_socket_error"
  | workerClosed => "worker_closed"
  | streamCancelled => "stream_cancelled"
  | noReadyWorkers => "no_ready_workers"
  | workerCrashed => "worker_crashed"

/-- `WorkerPoolError`; the last three fields are its `details`. -/
structure WorkerPoolError where
  message : JsString
  code : ErrorCode
  statusCode : ℕ := 500
  requestId : Option JsString := none
  workerId : Option ℤ := none
  retryAfterSeconds : Option ℕ := none
  deriving DecidableEq, Repr

/-- What a run resolves to. -/
structure InferenceResult where
  text : JsString
  device : JsString
  degraded : Bool
  degradedReason : Option JsString
  deriving DecidableEq, Repr

/-- How a promise was settled. -/
inductive Outcome
  | resolved (result : InferenceResult)
  | rejected (err : WorkerPoolError)
  deriving DecidableEq, Repr

/-- The constructor's options, and how numbers are written: `numberText` is the text JavaScript
gives the number that a JSON literal stands for. -/
structure Options where
  workerCount : ℕ
  connectTimeoutMs : ℤ
  recoveryMs : ℤ := 2000
  recoveryAttempts : ℤ := 10
  startupGraceMs : ℤ := 15000
  numberText : JsString → JsString

structure WorkerEntry where
  status : WorkerStatus := .starting
  recoveryTimer : Option ℕ := none
  recoveryAttempt : ℤ := 0
  startedAt : ℤ
  device : Option JsString := none
  degraded : Bool := false
  degradedReason : Option JsString := none
  deriving DecidableEq, Repr

/-- An entry of `inFlight`; `run` is the run whose `failInFlight` it holds. -/
structure InFlight where
  workerId : ℤ
  run : ℕ
  deriving DecidableEq, Repr

/-- One request on its socket. `written` says whether the infer frame has been, `ended`,
`destroyed` and `closed` how far the client is gone, and `tokens` is what `onToken` was called
with. -/
structure Run where
  workerId : ℤ
  requestId : JsString
  prompt : JsString
  mfeId : JsString
  stream : Bool
  connectTimer : Bool := true
  done : Bool := false
  cleanupDone : Bool := false
  buffer : JsString := []
  written : Bool := false
  ended : Bool := false
  destroyed : Bool := false
  destroyError : Option WorkerPoolError := none
  closed : Bool := false
  tokens : List JsString := []
  outcome : Option Outcome := none
  deriving DecidableEq, Repr

/-- A pending recovery timer. -/
structure RecoveryTimer where
  id : ℕ
  workerId : ℤ
  delay : ℤ
  deriving DecidableEq, Repr

/-- A probe that has not finished. -/
structure Probe where
  id : ℕ
  workerId : ℤ
  deriving DecidableEq, Repr

/-- `WorkerPool`. `threw` says that a handler threw: nothing catches it, the process ends. -/
structure WorkerPool where
  workers : OrderedMap ℤ WorkerEntry
  inFlight : OrderedMap JsString InFlight := ∅
  runs : List Run := []
  timers : List RecoveryTimer := []
  nextTimer : ℕ := 0
  probes : List Probe := []
  nextProbe : ℕ := 0
  threw : Bool := false
  deriving DecidableEq

/-- The constructor. -/
def WorkerPool.new (o : Options) (now : ℤ) : WorkerPool where
  workers := (List.range o.workerCount).foldl
    (fun workers (i : ℕ) => workers.set i { startedAt := now }) ∅

/-- A message on the supervisor's socket, as far as it is understood. -/
inductive SupervisorMessage
  | workerCrashed (workerId : ℤ) (requestId : JsString)
  | workerRestarted (workerId : ℤ)
  | workerReady (workerId : ℤ)
  deriving DecidableEq, Repr

end ServeInfer.ApiServer
