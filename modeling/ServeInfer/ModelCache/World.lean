import ServeInfer.ModelCache.Segments
import ServeInfer.Supervisor.Loop

/-!
# Supervisor, model caches and workers over shared memory

The supervisor's machine with the segments and with each process's place in its
program. A process may end between any two steps; what it had mapped is then
mapped no more, and what it left in the objects stays.
-/

namespace ServeInfer.ModelCache

/-- A change of a weights object, with the live workers that have it mapped. -/
structure Write where
  object : ℕ
  mappedBy : List ℕ
  deriving DecidableEq, Repr

/-- The supervisor, the segments, and by process number the caches and the workers.
`seenReady` says whether a wait for the model has been answered in this run. -/
structure World where
  sup : Supervisor.State
  shm : Shm
  caches : ℕ → Cache := fun _ => {}
  readers : ℕ → Reader := fun _ => .openMeta
  seenReady : Bool := false
  writes : List Write := []

inductive Action
  | supervisor (a : Supervisor.Action)
  | cache (serial n : ℕ) (now : ℤ)
  | cacheFails (serial : ℕ)
  | reader (serial : ℕ)
  | readerFails (serial : ℕ)
  deriving DecidableEq, Repr

/-- The supervisor before its start, over whatever an earlier run has left. -/
def init (cfg : Supervisor.Config) (shm : Shm) : World where
  sup := Supervisor.init cfg
  shm := shm

namespace World

/-- The live child with this number, if it is of the kind. -/
def live (s : World) (type : Supervisor.ProcessType) (serial : ℕ) : Option Supervisor.Child :=
  s.sup.children.find? fun c => c.serial = serial ∧ c.type = type ∧ c.status = none

/-- The live workers. -/
def liveWorkers (s : World) : List ℕ :=
  (s.sup.children.filter fun c => c.type = .worker ∧ c.status = none).map
    Supervisor.Child.serial

def mappedBy (s : World) (o : ℕ) : List ℕ := s.liveWorkers.filter fun n => s.readers n = .attached o

/-- The steps of the supervisor that the segments and the processes allow: the model is seen
ready when its header says so, and only an attached worker sends heartbeats. -/
def allows (s : World) : Supervisor.Action → Bool
  | .ready true => evaluateModelHeader s.shm.header s.sup.runNonce = .ready
  | .beat serial _ _ =>
      match s.readers serial with
      | .attached _ => true
      | _ => false
  | _ => true

/-- `generateRunNonce`: not 0, and no nonce that a header carries already. -/
def FreshNonce (s : World) (runNonce : ℕ) : Prop :=
  runNonce ≠ 0 ∧ ∀ m < s.shm.nextMeta, ∀ h ∈ s.shm.metas m, h.runNonce ≠ runNonce

instance (s : World) (runNonce : ℕ) : Decidable (s.FreshNonce runNonce) :=
  inferInstanceAs (Decidable (_ ∧ _))

def superviseStep (cfg : Supervisor.Config) (s : World) (a : Supervisor.Action) : Option World :=
  if s.allows a then
    match Supervisor.step cfg s.sup a with
    | none => none
    | some sup =>
        if sup.runNonce = s.sup.runNonce ∨ s.FreshNonce sup.runNonce then
          some { s with sup := sup, seenReady := s.seenReady || a = .ready true }
        else none
  else none

def cacheStep (model : List UInt8) (s : World) (serial n : ℕ) (now : ℤ) : Option World :=
  match s.live .modelCache serial with
  | none => none
  | some c =>
      ((s.caches serial).step model c.runNonce n now s.shm).map fun (k, shm) =>
        { s with
          shm := shm
          caches := Function.update s.caches serial k
          writes := s.writes ++ (((s.caches serial).touches model).map fun o =>
            ⟨o, s.mappedBy o⟩).toList }

def cacheFails (s : World) (serial : ℕ) : Option World :=
  match s.live .modelCache serial with
  | none => none
  | some _ =>
      (s.caches serial).fails.map fun k => { s with caches := Function.update s.caches serial k }

/-- A worker's next step, or its failing. -/
def readerStep (next : Reader → Option Reader) (s : World) (serial : ℕ) : Option World :=
  match s.live .worker serial with
  | none => none
  | some _ =>
      (next (s.readers serial)).map fun r => { s with readers := Function.update s.readers serial r }

end World

/-- One step of the whole. -/
def step (cfg : Supervisor.Config) (model : List UInt8) (s : World) : Action → Option World
  | .supervisor a => s.superviseStep cfg a
  | .cache serial n now => s.cacheStep model serial n now
  | .cacheFails serial => s.cacheFails serial
  | .reader serial => s.readerStep (Reader.step s.shm) serial
  | .readerFails serial => s.readerStep Reader.fails serial

end ServeInfer.ModelCache
