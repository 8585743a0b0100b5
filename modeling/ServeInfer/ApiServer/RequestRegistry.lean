import ServeInfer.ApiServer.Types
import ServeInfer.Lib.Machine

/-!
# The request registry

One `RequestRegistry` and the executions it starts. What an execution resolves
to is left open. Its promise settles some microtasks after `execute`'s own, so
calling `execute`, its settling and the reaction to that are steps of their own.
-/

namespace ServeInfer.ApiServer

/-- An entry of `inflight`; `promise` is the number of its execution. -/
structure InflightEntry where
  mfeId : JsString
  stream : Bool
  startedAt : ℤ
  promise : ℕ
  deriving DecidableEq, Repr

/-- An entry of `completed`. -/
structure CompletedEntry (β : Type*) where
  finishedAt : ℤ
  result : β
  deriving DecidableEq

/-- One request of `snapshot` and of the in-flight file. -/
structure InflightRow where
  requestId : JsString
  mfeId : JsString
  stream : Bool
  startedAt : ℤ
  deriving DecidableEq, Repr

/-- A write to a temporary file whose rename has not been done. -/
structure FileWrite where
  seq : ℕ
  rows : List InflightRow
  deriving DecidableEq, Repr

structure RequestRegistry (β : Type*) where
  idempotencyTtlMs : ℤ
  inflight : OrderedMap JsString InflightEntry := ∅
  completed : OrderedMap JsString (CompletedEntry β) := ∅
  orphans : List Json := []
  writeSeq : ℕ := 0
  writeInFlight : Bool := false
  writePending : Bool := false
  writes : List FileWrite := []

/-- The `state` that `run` and `lookup` report. -/
inductive IdState
  | new
  | inflight
  | completed
  deriving DecidableEq, Repr

/-- The promise that `run` returns: resolved at once, or an execution's. -/
inductive AttemptPromise (β : Type*)
  | resolved (result : β)
  | execution (promise : ℕ)
  deriving DecidableEq

/-- What `run` returns. -/
structure Attempt (β : Type*) where
  replay : Bool
  state : IdState
  promise : AttemptPromise β
  deriving DecidableEq

/-- What `lookup` returns. -/
structure Lookup (β : Type*) where
  state : IdState
  result : Option β := none
  deriving DecidableEq

/-- What `snapshot` returns. -/
structure Snapshot where
  inflight : List InflightRow
  completedCount : ℕ
  orphanedFromPreviousRun : List Json

namespace RequestRegistry

variable {β : Type*}

/-- `readInflightFile`; there may be no file. -/
def readInflightFile (file : Option JsString) : List Json :=
  match file with
  | none => []
  | some raw =>
      if (Json.trim raw).isEmpty then []
      else
        match Json.parse (Json.trim raw) with
        | none => []
        | some parsed =>
            match parsed.get? "inflight" with
            | some (.arr items) => items
            | _ => []

def rows (s : RequestRegistry β) : List InflightRow :=
  s.inflight.entries.map fun e => ⟨e.1, e.2.mfeId, e.2.stream, e.2.startedAt⟩

/-- `_persist`. -/
def persist (s : RequestRegistry β) : RequestRegistry β :=
  if s.writeInFlight then { s with writePending := true }
  else
    { s with
      writeInFlight := true
      writePending := false
      writeSeq := s.writeSeq + 1
      writes := s.writes ++ [⟨s.writeSeq + 1, s.rows⟩] }

/-- The constructor. -/
def new (idempotencyTtlMs : ℤ) (file : Option JsString) : RequestRegistry β :=
  persist { idempotencyTtlMs := idempotencyTtlMs, orphans := readInflightFile file }

/-- `_evictCompleted`, which stops at the first entry that has not expired. -/
def evictCompleted (s : RequestRegistry β) (now : ℤ) : RequestRegistry β :=
  { s with
    completed := s.completed.dropWhile fun e => !(now - s.idempotencyTtlMs ≤ e.2.finishedAt : Bool) }

def snapshot (s : RequestRegistry β) (now : ℤ) : Snapshot × RequestRegistry β :=
  (⟨(s.evictCompleted now).rows, (s.evictCompleted now).completed.size, s.orphans⟩,
    s.evictCompleted now)

def lookup (s : RequestRegistry β) (requestId : JsString) (now : ℤ) :
    Lookup β × RequestRegistry β :=
  let s := s.evictCompleted now
  if s.inflight.has requestId then ({ state := .inflight }, s)
  else
    match s.completed.get? requestId with
    | some finished => ({ state := .completed, result := some finished.result }, s)
    | none => ({ state := .new }, s)

/-- `run`; `promise` is the number of the execution it starts, if it starts one. What has expired
and `startedAt` go by two readings of the clock in one turn, which are one here. -/
def run (s : RequestRegistry β) (promise : ℕ) (requestId mfeId : JsString) (stream : Bool)
    (now : ℤ) : Attempt β × RequestRegistry β :=
  let s := s.evictCompleted now
  match s.completed.get? requestId with
  | some finished => (⟨true, .completed, .resolved finished.result⟩, s)
  | none =>
      match s.inflight.get? requestId with
      | some entry => (⟨true, .inflight, .execution entry.promise⟩, s)
      | none =>
          (⟨false, .new, .execution promise⟩,
            { s with inflight := s.inflight.set requestId ⟨mfeId, stream, now, promise⟩ }.persist)

/-- `_settle`. -/
def settle (s : RequestRegistry β) (requestId : JsString) (result : β) (now : ℤ) :
    RequestRegistry β :=
  { s with
    inflight := s.inflight.delete requestId
    completed := s.completed.set requestId ⟨now, result⟩ }.persist

/-- What is done when an execution has failed. -/
def forget (s : RequestRegistry β) (requestId : JsString) : RequestRegistry β :=
  { s with inflight := s.inflight.delete requestId }.persist

end RequestRegistry

/-- How far an execution is; `none` is a failure. -/
inductive ExecutionPhase (β : Type*)
  | waiting
  | running
  | answered (outcome : Option β)
  | settled (outcome : Option β)
  deriving DecidableEq

structure Execution (β : Type*) where
  requestId : JsString
  phase : ExecutionPhase β := .waiting
  deriving DecidableEq

/-- An id that succeeded, when, and with what. -/
structure Success (β : Type*) where
  requestId : JsString
  finishedAt : ℤ
  result : β
  deriving DecidableEq

/-- The registry and the executions it has started. `clock` is the last reading of the clock and
`successes` the executions that have been cached, the last one first; neither is read by the code. -/
structure RegistryState (β : Type*) where
  registry : RequestRegistry β
  executions : OrderedMap ℕ (Execution β) := ∅
  clock : ℤ
  successes : List (Success β) := []

inductive RegistryAction (β : Type*)
  | run (promise : ℕ) (requestId mfeId : JsString) (stream : Bool) (now : ℤ)
  | lookup (requestId : JsString) (now : ℤ)
  | snapshot (now : ℤ)
  | callExecute (promise : ℕ)
  | settleExecute (promise : ℕ) (outcome : Option β)
  | react (promise : ℕ) (now : ℤ)
  deriving DecidableEq

namespace RegistryState

variable {β : Type*}

def init (idempotencyTtlMs : ℤ) (file : Option JsString) (now : ℤ) : RegistryState β where
  registry := .new idempotencyTtlMs file
  clock := now

def setPhase (s : RegistryState β) (p : ℕ) (x : Execution β) (phase : ExecutionPhase β) :
    RegistryState β :=
  { s with executions := s.executions.set p { x with phase := phase } }

/-- A run of `run`, which has an execution of its own when it is a new one. -/
def onRun (s : RegistryState β) (p : ℕ) (requestId mfeId : JsString) (stream : Bool) (now : ℤ) :
    RegistryState β :=
  { s with
    registry := (s.registry.run p requestId mfeId stream now).2
    executions :=
      if (s.registry.run p requestId mfeId stream now).1.state = .new then
        s.executions.set p { requestId := requestId }
      else s.executions
    clock := now }

/-- The reaction to an execution's answer. -/
def onAnswer (s : RegistryState β) (p : ℕ) (x : Execution β) (outcome : Option β) (now : ℤ) :
    RegistryState β :=
  { s.setPhase p x (.settled outcome) with
    registry :=
      match outcome with
      | some result => s.registry.settle x.requestId result now
      | none => s.registry.forget x.requestId
    clock := now
    successes :=
      match outcome with
      | some result => ⟨x.requestId, now, result⟩ :: s.successes
      | none => s.successes }

end RegistryState

/-- One step; the clock never goes back, and a new execution has a number of its own. -/
def registryStep {β : Type*} (s : RegistryState β) (a : RegistryAction β) :
    Option (RegistryState β) :=
  match a with
  | .run p requestId mfeId stream now =>
      if s.clock ≤ now ∧ s.executions.get? p = none then some (s.onRun p requestId mfeId stream now)
      else none
  | .lookup requestId now =>
      if s.clock ≤ now then
        some { s with registry := (s.registry.lookup requestId now).2, clock := now }
      else none
  | .snapshot now =>
      if s.clock ≤ now then some { s with registry := (s.registry.snapshot now).2, clock := now }
      else none
  | .callExecute p =>
      match s.executions.get? p with
      | some ⟨requestId, .waiting⟩ => some (s.setPhase p ⟨requestId, .waiting⟩ .running)
      | _ => none
  | .settleExecute p outcome =>
      match s.executions.get? p with
      | some ⟨requestId, .running⟩ => some (s.setPhase p ⟨requestId, .running⟩ (.answered outcome))
      | _ => none
  | .react p now =>
      if s.clock ≤ now then
        match s.executions.get? p with
        | some ⟨requestId, .answered outcome⟩ =>
            some (s.onAnswer p ⟨requestId, .answered outcome⟩ outcome now)
        | _ => none
      else none

end ServeInfer.ApiServer
