import ServeInfer.ApiServer.WorkerPool
import ServeInfer.Lib.Machine

/-!
# The worker pool among its events

One step is a call of the api-server's or an event that the event loop hands to
a handler. A socket keeps Node's order: nothing but its error and its close
comes from a destroyed one, the error comes first, and neither comes twice.
-/

namespace ServeInfer.ApiServer

/-- The steps. -/
inductive PoolAction
  | infer (reading : Reading) (request : InferRequest)
  | getHealth (reading : Reading)
  | supervisor (now : ℤ) (msg : SupervisorMessage)
  | connect (r : ℕ)
  | data (r : ℕ) (chunk : List UInt8)
  | error (r : ℕ) (message : JsString)
  | close (r : ℕ)
  | connectTimeout (r : ℕ)
  | cancel (r : ℕ)
  | recoveryTimer (id : ℕ) (reading : Reading)
  | probe (id : ℕ) (now : ℤ) (alive : Bool)

namespace Run

/-- A socket connects before anything else happens to it. -/
def canConnect (run : Run) : Bool := !run.written && !run.destroyed

def canData (run : Run) : Bool := run.written && !run.destroyed

/-- An error is the system's, which destroys the socket, or the one that `destroy` was given. -/
def canError (run : Run) (message : JsString) : Bool :=
  !run.closed && match run.destroyed, run.destroyError with
    | false, _ => true
    | true, some err => err.message = message
    | true, none => false

def canClose (run : Run) : Bool :=
  !run.closed && (run.destroyed || run.written) && run.destroyError.isNone

end Run

namespace WorkerPool

/-- The socket's own state after an error. -/
def errored (s : WorkerPool) (r : ℕ) : WorkerPool :=
  s.setRun r fun run => { run with destroyed := true, destroyError := none }

def closed (s : WorkerPool) (r : ℕ) : WorkerPool :=
  s.setRun r fun run => { run with destroyed := true, closed := true }

/-- An event of a run that allows it. -/
def guardRun (s : WorkerPool) (r : ℕ) (ok : Run → Bool) (next : WorkerPool) : Option WorkerPool :=
  match s.runs[r]? with
  | none => none
  | some run => if ok run then some next else none

end WorkerPool

/-- One step. A request that comes in has an id of its own among those in flight, and after an
uncaught exception there are no more steps. -/
def poolStep (o : Options) (s : WorkerPool) (a : PoolAction) : Option WorkerPool :=
  if s.threw then none
  else
    match a with
    | .infer reading request =>
        if s.inFlight.has request.requestId then none else some (s.infer o reading request).2
    | .getHealth reading => some (s.refreshWorkerReadiness o reading)
    | .supervisor now msg => some (s.handleSupervisorMessage o now msg)
    | .connect r => s.guardRun r Run.canConnect (s.onConnect r)
    | .data r chunk => s.guardRun r Run.canData (s.onData o r chunk)
    | .error r message =>
        s.guardRun r (fun run => run.canError message) ((s.errored r).onError o r message)
    | .close r => s.guardRun r Run.canClose ((s.closed r).onClose o r)
    | .connectTimeout r => s.guardRun r Run.connectTimer (s.connectTimeout r)
    | .cancel r => s.guardRun r Run.stream (s.cancel o r)
    | .recoveryTimer id reading =>
        (s.timers.find? fun t => t.id = id).map fun timer => s.onRecoveryTimer o timer reading
    | .probe id now alive =>
        (s.probes.find? fun p => p.id = id).map fun probe => s.onProbe o probe now alive

end ServeInfer.ApiServer
