import ServeInfer.Clients.Retry
import ServeInfer.Lib.JsonNumber
import ServeInfer.Lib.OrderedMap

/-!
# The chat client

`useChatClient` keeps what a chat shows, and one run for each request: a stream, and behind it
the attempts of `withRetry`. A step is a call of the component's, an event of one stream, a timer,
or the reaction to a settled attempt, which comes before anything else happens. The times that
log entries carry are left out.
-/

namespace ServeInfer.Clients

/-- The error that an attempt is rejected with. -/
structure AttemptError where
  message : JsString
  payload : Json

/-- Where a run stands: its attempt is under way, settled, to be repeated when the timer fires, or
the run is over. -/
inductive Stage
  | streaming
  | settled (result : Except (Option AttemptError) Json)
  | waiting (lastError : AttemptError)
  | finished

/-- A call of `startRun`, with the number of its attempts and the stream of the last one. `heard`
is what the streams of all its attempts have called, and `repeated` the errors that were answered
with another attempt, with the time waited for it. Without an attempt nothing is thrown but the
initial `lastError`. -/
structure Run where
  requestId : JsString
  answerId : ℕ
  text : JsString
  priority : String
  attempt : ℕ := 0
  stream : ChatStream
  stage : Stage := .settled (.error none)
  heard : List Call := []
  repeated : List (AttemptError × ℚ) := []

inductive Role
  | user
  | assistant
  deriving DecidableEq, Repr

structure Message where
  id : ℕ
  role : Role
  text : JsString
  requestId : JsString
  priority : Option String := none
  device : Option Json := none
  degraded : Option Bool := none
  degradedReason : Option Json := none

structure LogEntry where
  id : ℕ
  type : String
  detail : Json

inductive Status
  | idle
  | queued
  | streaming
  | done
  | cancelled
  | error
  deriving DecidableEq, Repr

inductive Connection
  | checking
  | online
  | offline
  deriving DecidableEq, Repr

/-- The error shown, with its code. -/
structure ShownError where
  code : Json
  message : JsString

/-- The state and the refs of the hook. `runsRef` names the run that holds each handle, `counter`
is the number of ids given out. -/
structure Client where
  messages : List Message := []
  events : List LogEntry := []
  status : Status := .idle
  connection : Connection := .checking
  tokenCount : ℕ := 0
  queuePosition : Option Json := none
  etaSeconds : Option ℤ := none
  error : Option ShownError := none
  device : Option Json := none
  mountedRef : Bool := true
  runsRef : OrderedMap JsString ℕ := ∅
  cancelledRef : List JsString := []
  runCount : ℕ := 0
  counter : ℕ := 0
  runs : List Run := []

/-- `MAX_EVENTS`. -/
def maxEvents : ℕ := 200

/-- The arguments of the hook, and the conversions of numbers: `Number` of a value where it is
finite, and how a number is written. -/
structure Settings where
  priority : String := "high"
  retry : Bool := false
  policy : RetryPolicy := retryDefaults
  numberOf : Json → Option ℚ
  numberText : JsString → JsString
  num : ℚ → JsString

namespace Client

variable (cfg : Settings) (c : Client)

/-- `nextId`. -/
def nextId : ℕ × Client := (c.counter + 1, { c with counter := c.counter + 1 })

def pushEvent (type : String) (detail : Json) : Client :=
  if c.mountedRef then
    let (id, c) := c.nextId
    let next := c.events ++ [⟨id, type, detail⟩]
    { c with events := next.drop (next.length - maxEvents) }
  else c

/-- `payload.key`, where that is truthy. -/
def truthyMember (payload : Json) (key : String) : Option Json :=
  (payload.get? key).filter (Json.truthy cfg.numberText)

/-- `appendToken`. An object with a `toString` of its own, which no token of the shell is, has a text
here, where the source throws. -/
def appendToken (answerId : ℕ) (token : Option Json) : Client :=
  match token.filter (Json.truthy cfg.numberText) with
  | none => c
  | some token =>
      if c.mountedRef then
        { c with
          messages := c.messages.map fun message =>
            if message.id = answerId then
              { message with text := message.text ++ token.toText cfg.numberText }
            else message
          tokenCount := c.tokenCount + 1 }
      else c

def editRun (i : ℕ) (f : Run → Run) : Client := { c with runs := c.runs.modify i f }

/-- The first `resolve` or `reject` of an attempt's promise. -/
def settle (i : ℕ) (result : Except (Option AttemptError) Json) : Client :=
  c.editRun i fun run =>
    match run.stage with
    | .streaming => { run with stage := .settled result }
    | _ => run

def finishRun (requestId : JsString) : Client :=
  let runsRef := c.runsRef.delete requestId
  { c with
    runsRef := runsRef
    runCount := if c.mountedRef then runsRef.size else c.runCount }

def requestDetail (requestId : JsString) (more : List (String × Json)) : Json :=
  object (("requestId", .str requestId) :: more)

/-- `typeof payload.position === 'number' ? payload.position : null`. -/
def positionOf (payload : Json) : Option Json :=
  match payload.get? "position" with
  | some (.num text) => some (.num text)
  | _ => none

/-- `eta`, from `Number(payload.estimatedWaitMs) || 0`. The shell writes no wait whose number is
infinite; that would be shown as such, and is none here. -/
def etaOf (payload : Json) : Option ℤ :=
  let waitMs := ((payload.get? "estimatedWaitMs").bind cfg.numberOf).getD 0
  if 0 < waitMs then some ⌈waitMs / 1000⌉ else none

def orNull (v : Option Json) : Json := v.getD .null

/-- A handler of `runOnce`. On `null`, which has no members, four of them throw, and nothing of
theirs is done. -/
def handle (i : ℕ) (run : Run) (call : Call) : Client :=
  let payload := call.payload
  match call.name, payload with
  | .onQueued, .null => c
  | .onQueued, payload =>
      let eta := etaOf cfg payload
      let position := positionOf payload
      let c :=
        if c.mountedRef then
          { c with status := .queued, queuePosition := position, etaSeconds := eta }
        else c
      c.pushEvent "queued" (requestDetail run.requestId
        [("position", orNull position),
          ("etaSeconds", orNull (eta.map fun n => .num (Json.decimalUnits n)))])
  | .onStarted, _ =>
      let c :=
        if c.mountedRef then
          { c with status := .streaming, queuePosition := none, etaSeconds := none }
        else c
      c.pushEvent "started" (requestDetail run.requestId [])
  | .onToken, .null => c
  | .onToken, payload => c.appendToken cfg run.answerId (payload.get? "token")
  | .onTimeout, payload => c.pushEvent "timeout" (withRequestId run.requestId payload)
  | .onCancelled, payload =>
      c.settle i (.error (some
        { message := Json.units "request_cancelled"
          payload := .obj ((ownProperties payload).foldl (fun ms m => setMember ms m.1 m.2)
            [(Json.units "error", .str (Json.units "request_cancelled"))]) }))
  | .onDone, .null => c
  | .onDone, payload =>
      let device := payload.get? "device"
      let degraded := (truthyMember cfg payload "degraded").isSome
      let c :=
        if c.mountedRef then
          { c with
            messages := c.messages.map fun message =>
              if message.id = run.answerId then
                { message with
                  device := device
                  degraded := some degraded
                  degradedReason := some ((payload.get? "degradedReason").getD .null) }
              else message
            device := (truthyMember cfg payload "device").or c.device }
        else c
      (c.pushEvent "done" (requestDetail run.requestId
        ((device.map fun v => ("device", v)).toList ++ [("degraded", .bool degraded)]))).settle i
          (.ok payload)
  | .onError, .null => c
  | .onError, payload =>
      let shown := ((truthyMember cfg payload "message").or (truthyMember cfg payload "error")).map
        (Json.toText cfg.numberText)
      c.settle i (.error (some
        { message := shown.getD (Json.units "stream_failed"), payload := payload }))

/-- The handlers called by one event, in the order of the calls. -/
def handleAll (i : ℕ) (run : Run) (calls : List Call) : Client :=
  calls.foldl (fun c call => c.handle cfg i run call) c

/-- `runOnce` of the `i`-th run, its next attempt, up to its return. -/
def runOnce (i : ℕ) (failure : Option JsString) : Client :=
  match c.runs[i]? with
  | none => c
  | some run =>
      let stream := startChatStream run.requestId (fun _ => true) failure
      let c := c.editRun i fun run =>
        { run with
          attempt := run.attempt + 1
          stage := .streaming
          stream := stream
          heard := run.heard ++ stream.calls }
      let c := c.handleAll cfg i run stream.calls
      let runsRef := c.runsRef.set run.requestId i
      { c with
        runsRef := runsRef
        runCount := if c.mountedRef then runsRef.size else c.runCount }

/-- `startRun` before its first attempt; `requestId` is what `makeRequestId` returns. -/
def beginRun (text : JsString) (priority : String) (requestId : JsString) : Client :=
  let (answerId, c) := c.nextId
  let c := { c with cancelledRef := c.cancelledRef.filter (· ≠ requestId) }
  let c :=
    if c.mountedRef then
      let (userId, c) := c.nextId
      { c with
        error := none
        status := .queued
        messages := c.messages ++
          [{ id := userId, role := .user, text := text, requestId := requestId,
             priority := some priority },
            { id := answerId, role := .assistant, text := [], requestId := requestId }] }
    else c
  let c := c.pushEvent "submitted" (requestDetail requestId
    [("priority", .str (Utf8.utf16 priority.toList))])
  let closed : ChatStream := { requestId := requestId, source := false, closed := true }
  let run : Run :=
    { requestId := requestId, answerId := answerId, text := text, priority := priority,
      stream := closed }
  { c with runs := c.runs ++ [run] }

/-- `startRun` up to its first `await`. A policy may allow no attempt. -/
def startRun (text : JsString) (priority : String) (requestId : JsString)
    (failure : Option JsString) : Client :=
  let i := c.runs.length
  let c := c.beginRun text priority requestId
  if cfg.retry ∧ cfg.policy.attempts = 0 then c else c.runOnce cfg i failure

/-- `send`. -/
def send (prompt : JsString) (priority : Option String) (requestId : JsString)
    (failure : Option JsString) : Client :=
  let text := Json.trim prompt
  if text = [] ∨ 0 < c.runsRef.size then c
  else
    { c with tokenCount := 0 }.startRun cfg text
      ((priority.filter (· ≠ "")).getD cfg.priority) requestId failure

/-- `burst`, with what each of its runs finds. -/
def burst (prompt : JsString) (priority : String) (started : List (JsString × Option JsString)) :
    Client :=
  let text := Json.trim prompt
  if text = [] ∨ 0 < c.runsRef.size then c
  else
    let c := { c with tokenCount := 0 }.pushEvent "burst" (object
      [("count", .num (Json.decimalUnits started.length)),
        ("priority", .str (Utf8.utf16 priority.toList))])
    started.foldl (fun c run => c.startRun cfg text priority run.1 run.2) c

/-- `run.handle.close()`, for every entry of `runsRef`. -/
def closeAll : Client :=
  { c with
    runs := c.runs.mapIdx fun i run =>
      if c.runsRef.entries.any fun entry => entry.2 = i then
        { run with stream := run.stream.close }
      else run }

/-- `cancel`. -/
def cancel : Client :=
  let ids := c.runsRef.keys
  let c := c.closeAll
  let c := { c with cancelledRef := c.cancelledRef ++ ids, runsRef := ∅ }
  let c :=
    if c.mountedRef then
      { c with runCount := 0, status := .cancelled, queuePosition := none, etaSeconds := none }
    else c
  c.pushEvent "cancelled" (object [("reason", .str (Json.units "user_cancelled"))])

/-- `clear`. -/
def clear : Client :=
  let c := { c with messages := [], events := [], error := none }
  if c.runsRef.size = 0 then { c with status := .idle, tokenCount := 0 } else c

/-- The cleanup of the effect. -/
def unmount : Client :=
  let c := { c with mountedRef := false }.closeAll
  { c with runsRef := ∅ }

/-- The `catch` and the `finally` of `startRun`. -/
def failRun (i : ℕ) (run : Run) (err : Option AttemptError) : Client :=
  let payload := (err.map AttemptError.payload).getD (.obj [])
  let code := (truthyMember cfg payload "error").getD (.str (Json.units "stream_failed"))
  let cancelled : Bool :=
    match code with
    | .str s => s = Json.units "request_cancelled"
    | _ => false
  let message := ((err.map AttemptError.message).filter (· ≠ [])).getD (code.toText cfg.numberText)
  let c :=
    if c.mountedRef then
      { c with
        status := if cancelled then .cancelled else .error
        error := if cancelled then c.error else some ⟨code, message⟩ }
    else c
  let c := c.pushEvent (if cancelled then "cancelled" else "error")
    (withRequestId run.requestId payload)
  (c.editRun i fun run => { run with stage := .finished }).finishRun run.requestId

/-- What follows the `await` of a run that succeeded. -/
def completeRun (i : ℕ) (run : Run) : Client :=
  let c := if c.mountedRef ∧ c.runsRef.size ≤ 1 then { c with status := .done } else c
  (c.editRun i fun run => { run with stage := .finished }).finishRun run.requestId

/-- The wait before the next attempt. -/
def waitMs (run : Run) (err : AttemptError) (random : ℚ) : ℚ :=
  backoffMs run.attempt ((err.payload.get? "retryAfterSeconds").bind cfg.numberOf) random cfg.policy

/-- `withRetry`'s reaction to a rejected attempt. -/
def retryRun (i : ℕ) (run : Run) (err : AttemptError) (random : ℚ) : Client :=
  if isRetryable (some err.payload) = false ∨ run.attempt = cfg.policy.attempts ∨
      c.cancelledRef.contains run.requestId then
    c.failRun cfg i run (some err)
  else
    let wait := waitMs cfg run err random
    let c := c.pushEvent "retry" (requestDetail run.requestId
      [("attempt", .num (Json.decimalUnits run.attempt)),
        ("of", .num (Json.decimalUnits cfg.policy.attempts)),
        ("waitMs", .num (cfg.num wait)),
        ("error", (truthyMember cfg err.payload "error").getD (.str (Json.units "unknown")))])
    c.editRun i fun run =>
      { run with stage := .waiting err, repeated := run.repeated ++ [(err, wait)] }

/-- The timer of `withRetry` fires. -/
def repeatRun (i : ℕ) (run : Run) (err : AttemptError) (failure : Option JsString) : Client :=
  if c.cancelledRef.contains run.requestId then c.failRun cfg i run (some err)
  else c.runOnce cfg i failure

/-- No attempt has been settled whose reaction is still to come. -/
def idle : Bool := c.runs.all fun run =>
  match run.stage with
  | .settled _ => false
  | _ => true

end Client

/-- What may happen next. -/
inductive Action
  | send (prompt : JsString) (priority : Option String) (requestId : JsString)
      (failure : Option JsString)
  | burst (prompt : JsString) (priority : String) (started : List (JsString × Option JsString))
  | cancel
  | acknowledged (requestId : JsString) (ok : Bool)
  | clear
  | health (ok : Bool)
  | unmount
  | event (run : ℕ) (e : MessageEvent)
  | react (run : ℕ) (random : ℚ)
  | timer (run : ℕ) (failure : Option JsString)

/-- One step. A source that is closed delivers no event. -/
def step (cfg : Settings) (c : Client) : Action → Option Client
  | .send prompt priority requestId failure =>
      if c.idle then some (c.send cfg prompt priority requestId failure) else none
  | .burst prompt priority started =>
      if c.idle then some (c.burst cfg prompt priority started) else none
  | .cancel => if c.idle then some c.cancel else none
  | .acknowledged requestId ok =>
      if c.idle then
        some (c.pushEvent "cancel-ack" (Client.requestDetail requestId [("ok", .bool ok)]))
      else none
  | .clear => if c.idle then some c.clear else none
  | .health ok =>
      if c.idle then
        some (if c.mountedRef then
          { c with connection := if ok then .online else .offline } else c)
      else none
  | .unmount => if c.idle then some c.unmount else none
  | .event i e =>
      match c.runs[i]? with
      | some run =>
          if c.idle ∧ run.stream.source = true then
            let stream := run.stream.receive e
            let calls := stream.calls.drop run.stream.calls.length
            some ((c.editRun i fun run =>
              { run with stream := stream, heard := run.heard ++ calls }).handleAll cfg i run calls)
          else none
      | none => none
  | .react i random =>
      match c.runs[i]? with
      | some run =>
          match run.stage with
          | .settled (.ok _) => some (c.completeRun i run)
          | .settled (.error none) => some (c.failRun cfg i run none)
          | .settled (.error (some err)) =>
              some (if cfg.retry then c.retryRun cfg i run err random
                else c.failRun cfg i run (some err))
          | _ => none
      | none => none
  | .timer i failure =>
      match c.runs[i]? with
      | some run =>
          match run.stage with
          | .waiting err =>
              if c.idle then some (c.repeatRun cfg i run err failure) else none
          | _ => none
      | none => none

/-- A client that was just mounted. -/
def mounted : Client := {}

end ServeInfer.Clients
