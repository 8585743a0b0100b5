import ServeInfer.ApiServer.PoolSteps

/-!
# The pool and the worker processes

A worker process accepts one connection after the other: `handleClient` reads
the frame, sends what it has to and returns, and only then is the next
connection accepted. The pool sees of it what comes over its sockets.
-/

namespace ServeInfer.ApiServer

/-- A worker process that listens at its worker's path: the connections, by their runs, that wait
to be accepted, and the one that `handleClient` is called for. -/
structure Process where
  worker : ℤ
  alive : Bool := true
  backlog : List ℕ := []
  serving : Option ℕ := none
  deriving DecidableEq, Repr

/-- The pool and the processes. `dialed` is the process that a run's socket is connected to, and
`outbox` what the process has sent on it and the pool has not been handed. -/
structure Fleet where
  pool : WorkerPool
  processes : List Process := []
  dialed : OrderedMap ℕ ℕ := ∅
  outbox : OrderedMap ℕ (List UInt8) := ∅

/-- A process starts or dies, a connection is made, `Worker::run` accepts one, `handleClient` sends
a token or, at its end, what it sends last, or the pool takes a step. -/
inductive FleetAction
  | listen (worker : ℤ)
  | die (i : ℕ)
  | dial (r : ℕ)
  | accept (i : ℕ)
  | send (i : ℕ) (bytes : List UInt8)
  | reply (i : ℕ) (bytes : List UInt8)
  | pool (a : PoolAction)

/-- The connection waits in the backlog, or `handleClient` is called for it. -/
def Process.holds (p : Process) (r : ℕ) : Bool := p.backlog.contains r || p.serving = some r

namespace Fleet

def init (o : Options) (now : ℤ) : Fleet where
  pool := .new o now

/-- The process that is bound to the worker's path: the one that came last. -/
def listener (s : Fleet) (w : ℤ) : Option ℕ :=
  (s.processes.zipIdx.reverse.find? fun e => e.1.worker = w).map Prod.snd

/-- `connect` finds a process that listens. -/
def dial (s : Fleet) (r : ℕ) : Option Fleet :=
  match s.pool.runs[r]?, s.dialed.get? r with
  | some run, none =>
      (s.listener run.workerId).bind fun i =>
        if run.canConnect && (s.processes[i]?).any fun p => p.alive then
          some { s with
            dialed := s.dialed.set r i
            processes := s.processes.modify i fun p => { p with backlog := p.backlog ++ [r] } }
        else none
  | _, _ => none

/-- `accept` in `Worker::run`. -/
def accept (s : Fleet) (i : ℕ) : Option Fleet :=
  match s.processes[i]? with
  | some ⟨_, true, r :: rest, none⟩ =>
      some { s with
        processes := s.processes.modify i fun p => { p with backlog := rest, serving := some r } }
  | _ => none

def transmit (s : Fleet) (r : ℕ) (bytes : List UInt8) : Fleet :=
  { s with outbox := s.outbox.set r ((s.outbox.get? r).getD [] ++ bytes) }

/-- `handleClient` sends a token; it has read the frame. -/
def send (s : Fleet) (i : ℕ) (bytes : List UInt8) : Option Fleet :=
  match s.processes[i]? with
  | some ⟨_, true, _, some r⟩ =>
      if (s.pool.runs[r]?).any Run.written then some (s.transmit r bytes) else none
  | _ => none

/-- The read of the frame is over: it has been written, or the client is gone. -/
def readable (run : Run) : Bool := run.written || run.destroyed

/-- `handleClient` sends what it sends last, if anything, and returns; `close(clientFd)`. -/
def reply (s : Fleet) (i : ℕ) (bytes : List UInt8) : Option Fleet :=
  match s.processes[i]? with
  | some ⟨_, true, _, some r⟩ =>
      if (s.pool.runs[r]?).any readable then
        some { s.transmit r bytes with
          processes := s.processes.modify i fun p => { p with serving := none } }
      else none
  | _ => none

/-- `handleClient` for the run has not returned, in a process that is alive. -/
def held (s : Fleet) (r : ℕ) : Bool := s.processes.any fun p => p.alive && p.holds r

/-- What the pool can be handed: a connection once it is made, bytes that have been sent, and a
close that one of the two sides has made. The supervisor names no request. -/
def offers (s : Fleet) : PoolAction → Bool
  | .connect r => (s.dialed.get? r).isSome
  | .data r chunk => chunk.isPrefixOf ((s.outbox.get? r).getD [])
  | .close r => (s.pool.runs[r]?).any Run.destroyed || !s.held r
  | .supervisor _ (.workerCrashed _ requestId) => requestId.isEmpty
  | _ => true

/-- The bytes that the pool has been handed are gone. -/
def taken (s : Fleet) : PoolAction → OrderedMap ℕ (List UInt8)
  | .data r chunk => s.outbox.set r (((s.outbox.get? r).getD []).drop chunk.length)
  | _ => s.outbox

end Fleet

/-- One step. -/
def fleetStep (o : Options) (s : Fleet) (a : FleetAction) : Option Fleet :=
  match a with
  | .listen w => some { s with processes := s.processes ++ [{ worker := w }] }
  | .die i =>
      if (s.processes[i]?).any fun p => p.alive then
        some { s with processes := s.processes.modify i fun p => { p with alive := false } }
      else none
  | .dial r => s.dial r
  | .accept i => s.accept i
  | .send i bytes => s.send i bytes
  | .reply i bytes => s.reply i bytes
  | .pool a =>
      if s.offers a then
        (poolStep o s.pool a).map fun pool => { s with pool := pool, outbox := s.taken a }
      else none

end ServeInfer.ApiServer
