import ServeInfer.ApiServer.PoolLoop
import ServeInfer.ApiServer.Replies
import ServeInfer.ApiServer.RequestRegistry

/-!
# The inference routes over the registry and the pool

`POST /infer` and `GET /infer/stream` hand the registry an `execute` that asks
the pool for a run, and await the registry's promise. A stream keeps its run's
handle, and cancels the run when its caller goes away before the answer.
-/

namespace ServeInfer.ApiServer

/-- How far an execution's `execute` is: not called, thrown because no worker was ready, or waiting
for its run. -/
inductive LaunchStage
  | waiting
  | refused
  | opened (run : ℕ)
  deriving DecidableEq, Repr

/-- What an execution's `execute` has been given, and how far it is. -/
structure Launch where
  request : InferRequest
  stage : LaunchStage := .waiting
  deriving DecidableEq, Repr

/-- One HTTP request. It has an `attempt` if it went through the registry's `run`, and an
`outcome` once its `await` is over. -/
structure Caller where
  request : InferRequest
  attempt : Option (Attempt InferenceResult) := none
  outcome : Option Outcome := none
  reply : Option StreamReply := none
  connected : Bool := true

/-- The api-server. `cut` are the runs that a disconnect has ended, which the code does not
record. -/
structure Server where
  registry : RegistryState InferenceResult
  pool : WorkerPool
  launches : OrderedMap ℕ Launch := ∅
  callers : List Caller := []
  cut : List ℕ := []

/-- A request, a microtask, a caller's disconnect, or an event of the pool's. -/
inductive ServerAction
  | post (promise : ℕ) (request : InferRequest) (now : ℤ)
  | stream (promise : ℕ) (request : InferRequest) (now : ℤ)
  | callExecute (promise : ℕ) (reading : Reading)
  | settleExecute (promise : ℕ)
  | react (promise : ℕ) (now : ℤ)
  | resume (caller : ℕ)
  | disconnect (caller : ℕ)
  | pool (a : PoolAction)
  | snapshot (now : ℤ)

/-- What the registry is told of an outcome. -/
def Outcome.result? : Outcome → Option InferenceResult
  | .resolved result => some result
  | .rejected _ => none

/-- The pool's own steps: the routes open runs and cancel them. -/
def PoolAction.ofPool : PoolAction → Bool
  | .infer _ _ => false
  | .cancel _ => false
  | _ => true

namespace Replies

/-- What a stream whose headers have gone out is sent when its promise is settled. -/
def stream (requestId : JsString) (replay : Bool) : Outcome → StreamReply
  | .resolved result => .event ⟨"done", answer requestId replay result⟩
  | .rejected err => streamError true requestId err

def reply (request : InferRequest) (replay : Bool) (outcome : Outcome) : StreamReply :=
  if request.stream then stream request.requestId replay outcome
  else .json (post request.requestId replay outcome)

end Replies

namespace Server

def init (o : Options) (idempotencyTtlMs : ℤ) (file : Option JsString) (now : ℤ) : Server where
  registry := .init idempotencyTtlMs file now
  pool := .new o now

/-- `sanitizePrompt` of a string. -/
def sanitized (request : InferRequest) (stream : Bool) : InferRequest :=
  { request with prompt := Json.trim request.prompt, stream := stream }

def setCaller (s : Server) (c : ℕ) (f : Caller → Caller) : Server :=
  { s with callers := s.callers.modify c f }

/-- A request that is answered at once. -/
def answered (s : Server) (request : InferRequest) (reply : StreamReply) : Server :=
  { s with callers := s.callers ++ [{ request := request, reply := some reply }] }

/-- `registry.run`, and the `await` of its promise. -/
def await (s : Server) (p : ℕ) (request : InferRequest) (now : ℤ) : Option Server :=
  (registryStep s.registry (.run p request.requestId request.mfeId request.stream now)).map
    fun registry =>
      let attempt :=
        (s.registry.registry.run p request.requestId request.mfeId request.stream now).1
      { s with
        registry := registry
        launches :=
          if attempt.state = .new then s.launches.set p { request := request } else s.launches
        callers := s.callers ++ [{ request := request, attempt := some attempt }] }

/-- `POST /infer`. -/
def post (s : Server) (p : ℕ) (request : InferRequest) (now : ℤ) : Option Server :=
  if request.prompt.isEmpty then some (s.answered request (.json Replies.promptRequired))
  else s.await p request now

/-- `GET /infer/stream`. -/
def stream (s : Server) (p : ℕ) (request : InferRequest) (now : ℤ) : Option Server :=
  if request.prompt.isEmpty then some (s.answered request (.json Replies.promptRequired))
  else
    match (s.registry.registry.lookup request.requestId now).1 with
    | ⟨.new, _⟩ => s.await p request now
    | ⟨.completed, some result⟩ =>
        (registryStep s.registry (.lookup request.requestId now)).map fun registry =>
          { s with registry := registry }.answered request
            (Replies.stream request.requestId true (.resolved result))
    | _ =>
        (registryStep s.registry (.lookup request.requestId now)).map fun registry =>
          { s with registry := registry }.answered request
            (.json (Replies.requestInFlight request.requestId))

/-- How the promise that `execute` returned is settled. -/
def answer (s : Server) (p : ℕ) : Option Outcome :=
  match s.launches.get? p with
  | some ⟨_, .refused⟩ => some (.rejected WorkerPool.noReadyWorkers)
  | some ⟨_, .opened r⟩ => (s.pool.runs[r]?).bind Run.outcome
  | _ => none

/-- How the promise of an attempt is settled. -/
def settled (s : Server) (promise : AttemptPromise InferenceResult) : Option Outcome :=
  match promise with
  | .resolved result => some (.resolved result)
  | .execution p =>
      match s.registry.executions.get? p with
      | some ⟨_, .settled _⟩ => s.answer p
      | _ => none

/-- No settlement is on its way through the microtasks. -/
def drained (s : Server) : Bool :=
  s.registry.executions.entries.all fun e =>
    match e.2.phase with
    | .running => (s.answer e.1).isNone
    | .answered _ => false
    | _ => true

/-- `execute()`: the pool is asked for a run. -/
def launch (o : Options) (s : Server) (p : ℕ) (reading : Reading) (request : InferRequest) :
    Server :=
  { s with
    pool := (s.pool.infer o reading request).2
    launches := s.launches.set p ⟨request,
      match (s.pool.infer o reading request).1 with
      | none => .refused
      | some r => .opened r⟩ }

/-- `Promise.resolve().then(() => execute())`. -/
def callExecute (o : Options) (s : Server) (p : ℕ) (reading : Reading) : Option Server :=
  match s.launches.get? p with
  | some ⟨request, .waiting⟩ =>
      (registryStep s.registry (.callExecute p)).map fun registry =>
        { s.launch o p reading request with registry := registry }
  | _ => none

/-- The promise that `execute` returned settles. -/
def settleExecute (s : Server) (p : ℕ) : Option Server :=
  (s.answer p).bind fun outcome =>
    (registryStep s.registry (.settleExecute p outcome.result?)).map fun registry =>
      { s with registry := registry }

/-- A caller's `await` is over, and it is answered. -/
def resume (s : Server) (c : ℕ) : Option Server :=
  match s.callers[c]? with
  | some ⟨request, some attempt, none, _, _⟩ =>
      (s.settled attempt.promise).map fun outcome =>
        s.setCaller c fun caller =>
          { caller with
            outcome := some outcome
            reply := some (Replies.reply request attempt.replay outcome) }
  | _ => none

/-- The run whose handle a caller holds: `execute` sets it, and `finally` takes the listeners of
its caller off. -/
def handle (s : Server) (caller : Caller) : Option ℕ :=
  match caller.request.stream, caller.attempt, caller.outcome with
  | true, some ⟨_, .new, .execution p⟩, none =>
      match s.launches.get? p with
      | some ⟨_, .opened r⟩ => some r
      | _ => none
  | _, _, _ => none

/-- `abort`, which cancels the run of a stream. -/
def abort (o : Options) (s : Server) (caller : Caller) : Server :=
  match s.handle caller with
  | none => s
  | some r =>
      { s with
        pool := s.pool.cancel o r
        cut := if (s.pool.runs[r]?).any fun run => !run.done then r :: s.cut else s.cut }

/-- A caller's connection closes. -/
def disconnect (o : Options) (s : Server) (c : ℕ) : Option Server :=
  match s.callers[c]? with
  | some caller =>
      if caller.connected then
        some ((s.setCaller c fun caller => { caller with connected := false }).abort o caller)
      else none
  | none => none

end Server

/-- One step. A request comes in when the microtasks of the last event are through. -/
def serverStep (o : Options) (s : Server) (a : ServerAction) : Option Server :=
  if s.pool.threw then none
  else
    match a with
    | .post p request now => if s.drained then s.post p (Server.sanitized request false) now else none
    | .stream p request now =>
        if s.drained then s.stream p (Server.sanitized request true) now else none
    | .callExecute p reading => s.callExecute o p reading
    | .settleExecute p => s.settleExecute p
    | .react p now =>
        (registryStep s.registry (.react p now)).map fun registry => { s with registry := registry }
    | .resume c => s.resume c
    | .disconnect c => s.disconnect o c
    | .pool a =>
        if a.ofPool then (poolStep o s.pool a).map fun pool => { s with pool := pool } else none
    | .snapshot now =>
        (registryStep s.registry (.snapshot now)).map fun registry => { s with registry := registry }

end ServeInfer.ApiServer
