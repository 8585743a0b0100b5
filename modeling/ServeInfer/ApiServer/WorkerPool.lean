import ServeInfer.ApiServer.Types

/-!
# The api-server's worker pool: operations

The methods of `WorkerPool` and the handlers of a run's socket. The clock and
what `existsSync` answers are given; `reject` and `resolve` settle a run's
promise the first time only.
-/

namespace ServeInfer.ApiServer

/-- The pool's clock reading and the socket files there are. -/
structure Reading where
  now : ℤ
  socketExists : ℤ → Bool

/-- The arguments of `runInference` and `runStreamingInference`. -/
structure InferRequest where
  requestId : JsString
  prompt : JsString
  mfeId : JsString
  stream : Bool
  deriving DecidableEq, Repr

namespace WorkerPool

def setWorker (s : WorkerPool) (w : ℤ) (f : WorkerEntry → WorkerEntry) : WorkerPool :=
  match s.workers.get? w with
  | none => s
  | some e => { s with workers := s.workers.set w (f e) }

def setRun (s : WorkerPool) (r : ℕ) (f : Run → Run) : WorkerPool :=
  { s with runs := s.runs.modify r f }

def clearTimeout (s : WorkerPool) (timer : Option ℕ) : WorkerPool :=
  { s with timers := s.timers.filter fun t => some t.id ≠ timer }

/-- A timer that will probe the worker. -/
def setTimeout (s : WorkerPool) (w delay : ℤ) : WorkerPool :=
  { s with timers := s.timers ++ [⟨s.nextTimer, w, delay⟩], nextTimer := s.nextTimer + 1 }

section Recovery

variable (o : Options)

/-- `_scheduleRecoveryProbe`. -/
def scheduleRecoveryProbe (s : WorkerPool) (w : ℤ) : WorkerPool :=
  match s.workers.get? w with
  | none => s
  | some e =>
      if e.status ≠ .crashed then s
      else if o.recoveryAttempts ≤ e.recoveryAttempt then s
      else
        (s.setWorker w fun e =>
          { e with recoveryAttempt := e.recoveryAttempt + 1, recoveryTimer := some s.nextTimer }
        ).setTimeout w (o.recoveryMs * (e.recoveryAttempt + 1))

/-- `isTransportFailure`. -/
def isTransportFailure (code : ErrorCode) : Bool :=
  code = .workerConnectTimeout || code = .workerSocketError || code = .workerClosed

/-- `_quarantineAfterTransportFailure`. -/
def quarantineAfterTransportFailure (s : WorkerPool) (w : ℤ) : WorkerPool :=
  match s.workers.get? w with
  | none => s
  | some e =>
      if e.status = .crashed then s
      else
        (((s.setWorker w fun e => { e with status := .crashed }).clearTimeout e.recoveryTimer).setWorker
          w fun e => { e with recoveryAttempt := 0 }).scheduleRecoveryProbe o w

/-- `_refreshWorkerReadiness` for one worker. -/
def refreshWorker (reading : Reading) (s : WorkerPool) (w : ℤ) : WorkerPool :=
  match s.workers.get? w with
  | none => s
  | some e =>
      if e.status = .busy ∨ e.status = .crashed then s
      else if reading.socketExists w then
        s.setWorker w fun e => { e with status := .ready, startedAt := reading.now }
      else if o.startupGraceMs ≤ reading.now - e.startedAt then
        ((s.clearTimeout e.recoveryTimer).setWorker w fun e =>
          { e with status := .crashed, recoveryTimer := none, recoveryAttempt := 0 }
        ).scheduleRecoveryProbe o w
      else s.setWorker w fun e => { e with status := .starting }

def refreshWorkerReadiness (s : WorkerPool) (reading : Reading) : WorkerPool :=
  s.workers.keys.foldl (refreshWorker o reading) s

/-- `_acquireWorker`; `none` when it throws `no_ready_workers`. -/
def acquireWorker (s : WorkerPool) (reading : Reading) : Option ℤ × WorkerPool :=
  let s := s.refreshWorkerReadiness o reading
  match s.workers.entries.find? fun e => e.2.status = .ready with
  | none => (none, s)
  | some (w, _) => (some w, s.setWorker w fun e => { e with status := .busy })

end Recovery

def noReadyWorkers : WorkerPoolError where
  message := Json.units "no ready workers"
  code := .noReadyWorkers
  statusCode := 503
  retryAfterSeconds := some 1

/-- The run that `_runRequest` or `runStreamingInference` opens on an acquired worker. -/
def openRun (s : WorkerPool) (w : ℤ) (request : InferRequest) : WorkerPool :=
  { s with
    runs := s.runs ++ [{
      workerId := w
      requestId := request.requestId
      prompt := request.prompt
      mfeId := request.mfeId
      stream := request.stream }]
    inFlight := s.inFlight.set request.requestId ⟨w, s.runs.length⟩ }

/-- `runInference` and `runStreamingInference`: the number of the run, if a worker was ready. -/
def infer (o : Options) (s : WorkerPool) (reading : Reading) (request : InferRequest) :
    Option ℕ × WorkerPool :=
  match s.acquireWorker o reading with
  | (none, s) => (none, s)
  | (some w, s) => (some s.runs.length, s.openRun w request)

section Run

variable (o : Options)

/-- Settle the promise, unless it is settled. -/
def settle (s : WorkerPool) (r : ℕ) (outcome : Outcome) : WorkerPool :=
  s.setRun r fun run => { run with outcome := run.outcome <|> some outcome }

/-- `client.destroy(err)`; the second time it does nothing. -/
def destroy (s : WorkerPool) (r : ℕ) (err : Option WorkerPoolError) : WorkerPool :=
  s.setRun r fun run =>
    if run.destroyed then run else { run with destroyed := true, destroyError := err }

def markDone (s : WorkerPool) (r : ℕ) : WorkerPool :=
  s.setRun r fun run => { run with done := true }

/-- The timer and the guard of `cleanup`. -/
def markClean (s : WorkerPool) (r : ℕ) : WorkerPool :=
  s.setRun r fun run =>
    { run with cleanupDone := run.cleanupDone || run.stream, connectTimer := false }

def deleteInFlight (s : WorkerPool) (requestId : JsString) : WorkerPool :=
  { s with inFlight := s.inFlight.delete requestId }

/-- `cleanup`, which only the streaming path guards against a second call. -/
def cleanup (s : WorkerPool) (r : ℕ) : WorkerPool :=
  match s.runs[r]? with
  | none => s
  | some run =>
      if run.stream && run.cleanupDone then s
      else
        ((s.markClean r).deleteInFlight run.requestId).setWorker run.workerId fun e =>
          if e.status = .crashed then e else { e with status := .ready }

/-- What `finalizeError` and the streaming `failInFlight` do to a run that is not done, up to
its promise. -/
def abandon (s : WorkerPool) (r : ℕ) (workerId : ℤ) (err : WorkerPoolError) : WorkerPool :=
  let s := (s.markDone r).cleanup r
  if isTransportFailure err.code then s.quarantineAfterTransportFailure o workerId else s

/-- `finalizeError` of `_runRequest`. -/
def finalizeError (s : WorkerPool) (r : ℕ) (err : WorkerPoolError) : WorkerPool :=
  match s.runs[r]? with
  | none => s
  | some run =>
      if run.done then s else (s.abandon o r run.workerId err).settle r (.rejected err)

/-- `failInFlight`: `_runRequest` destroys the client first and whether or not it is done. -/
def failInFlight (s : WorkerPool) (r : ℕ) (err : WorkerPoolError) : WorkerPool :=
  match s.runs[r]? with
  | none => s
  | some run =>
      if run.stream then
        if run.done then s
        else ((s.abandon o r run.workerId err).destroy r none).settle r (.rejected err)
      else (s.destroy r none).finalizeError o r err

/-- Where the two paths fail a run because of what came over the socket: only the streaming one
also destroys the client. -/
def failRun (s : WorkerPool) (r : ℕ) (err : WorkerPoolError) : WorkerPool :=
  match s.runs[r]? with
  | none => s
  | some run => if run.stream then s.failInFlight o r err else s.finalizeError o r err

/-- The connect timer. -/
def connectTimeout (s : WorkerPool) (r : ℕ) : WorkerPool :=
  match s.runs[r]? with
  | none => s
  | some run =>
      (s.setRun r fun run => { run with connectTimer := false }).destroy r (some {
        message := Json.units ("worker " ++ toString run.workerId ++ " connect timeout")
        code := .workerConnectTimeout
        statusCode := 503
        workerId := some run.workerId })

/-- `client.on('connect')`. -/
def onConnect (s : WorkerPool) (r : ℕ) : WorkerPool :=
  s.setRun r fun run => { run with connectTimer := false, written := true }

/-- `String(v ?? fallback)`. -/
def coalesce (v : Option Json) (fallback : String) : JsString :=
  match v with
  | none => Json.units fallback
  | some .null => Json.units fallback
  | some v => v.toText o.numberText

/-- The value, unless it is missing or falsy. -/
def truthy? (v : Option Json) : Option Json := v.filter (Json.truthy o.numberText)

/-- What a result frame resolves to. -/
def frameResult (msg : Json) : InferenceResult where
  text := coalesce o (msg.get? "text") ""
  device := coalesce o (msg.get? "device") "cpu"
  degraded := (truthy? o (msg.get? "degraded")).isSome
  degradedReason := (truthy? o (msg.get? "degradedReason")).map (Json.toText o.numberText)

/-- `_recordDevice`. -/
def recordDevice (s : WorkerPool) (w : ℤ) (msg : Json) : WorkerPool :=
  s.setWorker w fun e =>
    { e with
      device := some (frameResult o msg).device
      degraded := (frameResult o msg).degraded
      degradedReason := (frameResult o msg).degradedReason }

/-- A result frame. -/
def onResult (s : WorkerPool) (r : ℕ) (msg : Json) : WorkerPool :=
  match s.runs[r]? with
  | none => s
  | some run =>
      if run.done then s
      else
        ((((s.markDone r).cleanup r).setRun r fun run =>
          { run with ended := run.ended || !run.destroyed }).recordDevice o run.workerId msg).settle r
            (.resolved (frameResult o msg))

def onToken (s : WorkerPool) (r : ℕ) (token : JsString) : WorkerPool :=
  s.setRun r fun run => { run with tokens := run.tokens ++ [token] }

/-- What a frame's type says it is. -/
def isType (msg : Json) (type : String) : Bool :=
  match msg.get? "type" with
  | some (.str t) => t = Json.units type
  | _ => false

/-- The handler makes a text of something that has none, and throws. -/
def textless (run : Run) (msg : Json) : Bool :=
  let lacks (v : Option Json) : Bool := v.any fun v => !v.hasText
  if run.stream && isType msg "token" then lacks (msg.get? "token")
  else if isType msg "error" then lacks (truthy? o (msg.get? "error"))
  else
    isType msg "result" && !run.done && (lacks (msg.get? "device") ||
      lacks (truthy? o (msg.get? "degradedReason")) || lacks (msg.get? "text"))

/-- One line, and whether the handler goes on to the next one. What the handler does before it
throws is left out, for the process ends. -/
def onLine (s : WorkerPool) (r : ℕ) (line : JsString) : WorkerPool × Bool :=
  if line.isEmpty then (s, true)
  else
    match s.runs[r]?, Json.parse line with
    | none, _ => (s, false)
    | some run, none =>
        (s.failRun o r {
          message := Json.units "invalid worker JSON frame"
          code := .workerBadJson
          statusCode := 502
          workerId := some run.workerId }, false)
    | _, some .null => ({ s with threw := true }, false)
    | some run, some msg =>
        if textless o run msg then ({ s with threw := true }, false)
        else if run.stream && isType msg "token" then
          (s.onToken r (coalesce o (msg.get? "token") ""), true)
        else if isType msg "error" then
          (s.failRun o r {
            message := ((truthy? o (msg.get? "error")).map (Json.toText o.numberText)).getD
              (Json.units "worker_error")
            code := .workerError
            statusCode := 502
            workerId := some run.workerId }, false)
        else if isType msg "result" then (s.onResult o r msg, false)
        else (s, true)

/-- The loop over the lines of the buffer, the last of which is not finished. What is left of the
buffer comes second. -/
def drain (r : ℕ) : List JsString → WorkerPool → WorkerPool × JsString
  | [], s => (s, [])
  | [rest], s => (s, rest)
  | line :: lines, s =>
      match s.onLine o r (Json.trim line) with
      | (s, true) => drain r lines s
      | (s, false) => (s, List.intercalate [0x0A] lines)

/-- `client.on('data')`. -/
def onData (s : WorkerPool) (r : ℕ) (chunk : List UInt8) : WorkerPool :=
  match s.runs[r]? with
  | none => s
  | some run =>
      let (s, buffer) := drain o r ((run.buffer ++ Utf8.decode chunk).splitOn 0x0A) s
      s.setRun r fun run => { run with buffer := buffer }

/-- `client.on('error')`. -/
def onError (s : WorkerPool) (r : ℕ) (message : JsString) : WorkerPool :=
  match s.runs[r]? with
  | none => s
  | some run =>
      s.failRun o r {
        message := if message.isEmpty then Json.units "worker socket error" else message
        code := .workerSocketError
        statusCode := 502
        workerId := some run.workerId }

/-- `client.on('close')`. -/
def onClose (s : WorkerPool) (r : ℕ) : WorkerPool :=
  match s.runs[r]? with
  | none => s
  | some run =>
      if run.done then s
      else
        s.failRun o r {
          message := Json.units "worker closed before result"
          code := .workerClosed
          statusCode := 502
          workerId := some run.workerId }

/-- `cancel` of a streaming run. -/
def cancel (s : WorkerPool) (r : ℕ) : WorkerPool :=
  s.failInFlight o r {
    message := Json.units "stream_cancelled"
    code := .streamCancelled
    statusCode := 499 }

end Run

section Supervisor

variable (o : Options)

/-- The error of a request whose worker is reported dead. -/
def crashError (w : ℤ) (requestId : JsString) : WorkerPoolError where
  message := Json.units "worker crashed while request in-flight"
  code := .workerCrashed
  statusCode := 503
  requestId := some requestId
  workerId := some w
  retryAfterSeconds := some 2

/-- The in-flight entries that a notice concerns: the one it names, or all of the worker's. -/
def affected (s : WorkerPool) (w : ℤ) (requestId : JsString) : List (JsString × InFlight) :=
  match requestId.isEmpty, s.inFlight.get? requestId with
  | false, some entry => [(requestId, entry)]
  | _, _ => s.inFlight.entries.filter fun e => e.2.workerId = w

/-- `_markWorkerCrashed`; an empty request id is none. -/
def markWorkerCrashed (s : WorkerPool) (w : ℤ) (requestId : JsString) : WorkerPool :=
  match s.workers.get? w with
  | none => s
  | some _ =>
      let s := s.setWorker w fun e => { e with status := .crashed }
      let s := (s.affected w requestId).foldl
        (fun s e => s.failInFlight o e.2.run (crashError w e.1)) s
      ((s.clearTimeout ((s.workers.get? w).bind WorkerEntry.recoveryTimer)).setWorker w fun e =>
        { e with recoveryAttempt := 0 }).scheduleRecoveryProbe o w

/-- The two messages that bring an entry back: with a probe, or at once. -/
def revive (s : WorkerPool) (w now : ℤ) (status : WorkerStatus) : WorkerPool :=
  match s.workers.get? w with
  | none => s
  | some e =>
      if e.status = .busy then s
      else
        (s.clearTimeout e.recoveryTimer).setWorker w fun e =>
          { e with recoveryTimer := none, recoveryAttempt := 0, startedAt := now, status := status }

/-- `handleSupervisorMessage`. -/
def handleSupervisorMessage (s : WorkerPool) (now : ℤ) : SupervisorMessage → WorkerPool
  | .workerCrashed w requestId => s.markWorkerCrashed o w requestId
  | .workerRestarted w =>
      match s.workers.get? w with
      | none => s
      | some e =>
          if e.status = .busy then s else (s.revive w now .crashed).scheduleRecoveryProbe o w
  | .workerReady w => s.revive w now .ready

/-- What `_scheduleRecoveryProbe` does with a probe's answer. -/
def probed (s : WorkerPool) (w now : ℤ) (alive : Bool) : WorkerPool :=
  match s.workers.get? w with
  | none => s
  | some e =>
      if e.status ≠ .crashed then s
      else if alive then
        s.setWorker w fun e =>
          { e with recoveryTimer := none, recoveryAttempt := 0, startedAt := now, status := .ready }
      else s.scheduleRecoveryProbe o w

/-- A recovery timer fires: `_probeWorker`, which answers no at once without a socket file. -/
def onRecoveryTimer (s : WorkerPool) (timer : RecoveryTimer) (reading : Reading) : WorkerPool :=
  let s := s.clearTimeout (some timer.id)
  if s.workers.has timer.workerId && reading.socketExists timer.workerId then
    { s with probes := s.probes ++ [⟨s.nextProbe, timer.workerId⟩], nextProbe := s.nextProbe + 1 }
  else s.probed o timer.workerId reading.now false

/-- A probe's first event, or its timeout. -/
def onProbe (s : WorkerPool) (probe : Probe) (now : ℤ) (alive : Bool) : WorkerPool :=
  { s with probes := s.probes.filter fun p => p.id ≠ probe.id }.probed o probe.workerId now alive

end Supervisor

end WorkerPool

end ServeInfer.ApiServer
