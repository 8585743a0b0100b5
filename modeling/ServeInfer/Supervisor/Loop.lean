import ServeInfer.Lib.Machine
import ServeInfer.Supervisor.Operations

/-!
# The supervisor among its children

One step is a call of the supervisor's that the operating system answers, or
something a child does in between: a heartbeat, its end. A process ends when it
likes; that a signal makes it end is part of that.
-/

namespace ServeInfer.Supervisor

/-- The steps. The first three are not the supervisor's own. -/
inductive Action
  | beat (serial : ℕ) (busyMs : Option ℤ) (device : String)
  | die (serial status : ℕ)
  | requestStop
  | start (fork : Fork) (runNonce : ℕ)
  | ready (observed : Bool)
  | reap (pid : ℕ) (r : Readings)
  | reaped
  | stop
  | waited
  | accept (now : ℤ)
  | drained
  | check (now : ℤ)
  | wake
  deriving DecidableEq, Repr

namespace State

/-- A worker's heartbeat thread opens a connection, writes its line and closes. -/
def beat (s : State) (serial : ℕ) (busyMs : Option ℤ) (device : String) : Option State :=
  match s.children.find? fun c => c.serial = serial ∧ c.type = .worker ∧ c.status = none with
  | none => none
  | some c =>
      if device ∈ knownBackends ∧ -2 ^ 63 ≤ busyMs.getD 0 ∧ busyMs.getD 0 < 2 ^ 63 then
        some { s with backlog := s.backlog ++
          [{ sender := serial, text := heartbeatLine c.workerId busyMs device ++ ['\n'] }] }
      else none

/-- The child with this number ends, by an exit or by a signal; the others go on. -/
def endChild (serial status : ℕ) (c : Child) : Child :=
  if c.serial = serial ∧ c.status = none then { c with status := some status } else c

def die (s : State) (serial status : ℕ) : State :=
  { s with children := s.children.map (endChild serial status) }

/-- The next process that `start` or `restartWorkersAfterModelCacheRestart` starts, or the end
of its loop. -/
def startNext (cfg : Config) (s : State) (fork : Fork) (runNonce : ℕ) : Option State :=
  match s.phase with
  | .startCache =>
      match s.startModelCache fork runNonce with
      | (true, s) => some (s.enter .startReady)
      | (false, s) => some (s.enter .exited)
  | .startApi =>
      match s.startApiServer fork with
      | (true, s) => some (s.enter (.startWorkers 0))
      | (false, s) => some (s.enter .exited)
  | .startWorkers next =>
      if next < cfg.effectiveWorkerCount then
        match s.startWorker next fork with
        | (true, s) => some (s.enter (.startWorkers (next + 1)))
        | (false, s) => some (s.enter .exited)
      else some (s.enter .sleeping)
  | .restarting next =>
      if next < cfg.effectiveWorkerCount then
        let s := if s.workerPidById.has next then s else s.restartWorker next fork
        some (s.enter (.restarting (next + 1)))
      else some (s.enter .reaping)
  | _ => none

/-- `waitForModelReady` returns. -/
def observeReady (s : State) (observed : Bool) : Option State :=
  match s.phase with
  | .startReady => some (s.enter (if observed then .startApi else .exited))
  | .cacheReady => some (s.enter (if observed then .stopping 0 else .reaping))
  | _ => none

/-- `waitpid` hands out a child that has ended. -/
def reap (s : State) (pid : ℕ) (r : Readings) : Option State :=
  match s.phase, s.children.find? fun c => c.pid = pid with
  | .reaping, some c => c.status.map fun status => (s.unlist pid).handleCrash pid status r
  | _, _ => none

/-- The next turn of the loop that stops the workers. -/
def stopNext (cfg : Config) (s : State) : Option State :=
  match s.phase with
  | .stopping next =>
      if next < cfg.workerCount then
        match s.workerPidById.get? next with
        | none => some (s.enter (.stopping (next + 1)))
        | some pid =>
            some ((s.log (.terminated (s.serialOf pid) next)).enter (.stopped next))
      else some (s.enter (.restarting 0))
  | _ => none

/-- `waitpid` returns for the worker being stopped, whose pid is still in the table. -/
def waited (s : State) : Option State :=
  match s.phase with
  | .stopped next =>
      match s.workerPidById.get? next with
      | some pid =>
          if ∀ c ∈ s.children, c.pid = pid → c.status ≠ none then
            some ((s.stopWorker next pid).enter (.stopping (next + 1)))
          else none
      | none => none
  | _ => none

def accept (s : State) (now : ℤ) : Option State :=
  match s.phase, s.backlog with
  | .draining, conn :: rest => some ({ s with backlog := rest }.readConnection conn now)
  | _, _ => none

end State

/-- One step; an `accept` that fails ends the drain whatever is still waiting. -/
def step (cfg : Config) (s : State) : Action → Option State
  | .beat serial busyMs device => s.beat serial busyMs device
  | .die serial status => some (s.die serial status)
  | .requestStop => some { s with running := false }
  | .start fork runNonce => s.startNext cfg fork runNonce
  | .ready observed => s.observeReady observed
  | .reap pid r => s.reap pid r
  | .reaped =>
      if s.phase = .reaping ∧ ∀ c ∈ s.children, c.status = none then some (s.enter .draining)
      else none
  | .stop => s.stopNext cfg
  | .waited => s.waited
  | .accept now => s.accept now
  | .drained => if s.phase = .draining then some (s.enter .checking) else none
  | .check now =>
      if s.phase = .checking then
        some ((s.checkWorkerLiveness cfg.liveness now).enter .sleeping)
      else none
  | .wake =>
      if s.phase = .sleeping then some (s.enter (if s.running then .reaping else .exited))
      else none

end ServeInfer.Supervisor
