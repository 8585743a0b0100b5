import ServeInfer.Lib.Utf8Text
import ServeInfer.Lib.Json
import ServeInfer.Scheduler.Operations

/-!
# The shell's stream route

`GET /api/stream` enters a job into the scheduler and writes what becomes of it as server-sent
events: each notification, each token and done event of the job's `execute`, and the end of the
response once the job's promise is settled. One step is a call of the route's, or a step of the
scheduler that the other routes, a timer or a promise has taken.
-/

namespace ServeInfer.ShellApp

open Scheduler (Status Settlement Event Options Request)

/-- The query of the request, each member that is given as its text. -/
structure StreamQuery where
  prompt : Option (List Utf8.CodeUnit) := none
  mfeId : Option String := none
  priority : Option String := none
  requestId : Option String := none

/-- The payload of an error event; what is left out has no value. -/
structure ErrorPayload where
  error : Json
  message : String
  requestId : String
  retryAfterSeconds : Option Json := none
  retryable : Option Bool := none

/-- What is written to a response: its events, and its end. -/
inductive Frame
  | queued (requestId : String) (position : ℤ) (estimatedWaitMs : ℚ)
  | started (requestId : String)
  | cancelled (requestId reason : String)
  | timeout (requestId phase : String) (waitedMs ranMs : Option ℤ) (retryable : Bool)
  | token (payload : Json)
  | done (payload : Json)
  | error (payload : ErrorPayload)
  | ends

/-- `value || fallback`, for a text. -/
def orText (value : Option String) (fallback : String) : String :=
  (value.filter (· ≠ "")).getD fallback

/-- `onStatus`. -/
def statusFrame (requestId : String) : Status → Frame
  | .queued position estimatedWaitMs => .queued requestId position estimatedWaitMs
  | .started => .started requestId
  | .cancelled reason => .cancelled requestId (orText (some reason) "user_cancelled")
  | .timeout waitedMs retryable => .timeout requestId "queue" (some waitedMs) none retryable
  | .execTimeout phase ranMs retryable =>
      .timeout requestId (orText (some phase) "queue") none (some ranMs) retryable

/-- One request to the route: its variables, the promise of its handle and its response. -/
structure Stream (α : Type) where
  requestId : String
  job : Option ℕ
  requestClosed : Bool := false
  resumed : Bool := false
  settled : Option (Settlement α × Option Json) := none
  response : List Frame := []

/-- The scheduler, the requests in the order of their arrival, and the `payload` of the error with
which a `_run` call's `execute` was rejected. -/
structure Shell (α : Type) where
  scheduler : Scheduler.State α
  streams : List (Stream α) := []
  payloads : ℕ → Option Json := fun _ => none

def start {α : Type} (o : Options) : Shell α where
  scheduler := Scheduler.init o

section

variable {α : Type} (numberText : List Utf8.CodeUnit → List Utf8.CodeUnit)

/-- The truthy member of a rejection's payload. -/
def payloadMember (payload : Option Json) (key : String) : Option Json :=
  (payload.bind fun p => p.get? key).filter (Json.truthy numberText)

/-- The payload of the error event, by what the promise was rejected with. -/
def errorPayload (requestId : String) (payload : Option Json) :
    Scheduler.Rejection α → ErrorPayload
  | .scheduler err =>
      { error := .str (Json.units err.code)
        message := err.code
        requestId := requestId
        retryable := some err.retryable }
  | .thrown err =>
      { error := (payloadMember numberText payload "error").getD
          (.str (Json.units "stream_failed"))
        message := match err with
          | .error message => message
          | .other _ => "unknown_error"
        requestId := requestId
        retryAfterSeconds := payloadMember numberText payload "retryAfterSeconds" }

/-- A notification reaches `onStatus`, and a settlement the promise that the handle holds; the
first settlement is the one that counts. -/
def Stream.hear (payload : Option Json) (st : Stream α) : Event α → Stream α
  | .status id status =>
      if st.job = some id then
        { st with response := st.response ++ [statusFrame st.requestId status] }
      else st
  | .settle id outcome =>
      if st.job = some id ∧ st.settled.isNone then { st with settled := some (outcome, payload) }
      else st
  | _ => st

def Shell.edit (s : Shell α) (i : ℕ) (f : Stream α → Stream α) : Shell α :=
  { s with streams := s.streams.modify i f }

def Shell.add (s : Shell α) (st : Stream α) : Shell α := { s with streams := s.streams ++ [st] }

/-- The scheduler has gone on, and what it told since is heard by the streams. -/
def Shell.advance (s : Shell α) (scheduler : Scheduler.State α) (payload : Option Json) :
    Shell α :=
  let told := scheduler.trace.drop s.scheduler.trace.length
  { s with
    scheduler := scheduler
    streams := s.streams.map fun st => told.foldl (Stream.hear payload) st }

/-- `onToken` and `onDone`, called by the `execute` of a job. -/
def Stream.write (job : ℕ) (frame : Frame) (st : Stream α) : Stream α :=
  if st.job = some job then { st with response := st.response ++ [frame] } else st

/-- What is still written once the promise is settled. -/
def Stream.ending (st : Stream α) (payload : Option Json) : Settlement α → List Frame
  | .resolved _ => if st.requestClosed then [] else [.ends]
  | .rejected reason =>
      if st.requestClosed then []
      else [.error (errorPayload numberText st.requestId payload reason), .ends]

/-- What follows `await handle.promise`. -/
def Stream.resume (st : Stream α) (outcome : Settlement α) (payload : Option Json) : Stream α :=
  { st with
    resumed := true
    response := st.response ++ st.ending numberText payload outcome }

/-- The request that the route enters into the scheduler, by `submitStream`. -/
def streamRequest (q : StreamQuery) (generated : String) : Request where
  requestId := orText q.requestId generated
  mfeId := orText q.mfeId "meeting-summary"
  priority := orText q.priority "high"
  onStatus := true

variable (o : Options) (clock : ℕ → ℤ)

/-- The route up to its `await`; `generated` is what `makeRequestId` would return. A request
without a prompt is answered with a 400. -/
def Shell.stream (s : Shell α) (q : StreamQuery) (generated : String) : Shell α :=
  if Json.trim (q.prompt.getD []) = [] then s
  else
    let req := streamRequest q generated
    match Scheduler.enqueue o clock s.scheduler req with
    | .error err =>
        s.add
          { requestId := req.requestId
            job := none
            resumed := true
            response :=
              [.error (errorPayload (α := α) numberText req.requestId none (.scheduler err)),
                .ends] }
    | .ok scheduler =>
        (s.add { requestId := req.requestId, job := some s.scheduler.jobs.length }).advance
          scheduler none

/-- `closeHandler`; it is off once the route has resumed. -/
def Shell.close (s : Shell α) (i : ℕ) (st : Stream α) : Shell α :=
  if st.resumed then s
  else
    (s.edit i fun st => { st with requestClosed := true }).advance
      (Scheduler.cancel o clock s.scheduler st.requestId).1 none

inductive Action (α : Type)
  | other (a : Scheduler.Action α)
  | stream (q : StreamQuery) (generated : String)
  | fail (run : ℕ) (message : String) (payload : Option Json)
  | onToken (run : ℕ) (payload : Json)
  | onDone (run : ℕ) (payload : Json)
  | close (stream : ℕ)
  | resume (stream : ℕ)

/-- One step. `execute` calls back only while it runs. -/
def step (s : Shell α) : Action α → Option (Shell α)
  | .other a =>
      (Scheduler.step o clock s.scheduler a).map fun scheduler =>
        s.advance scheduler (match a with
          | .react k => s.payloads k
          | _ => none)
  | .stream q generated => some (s.stream numberText o clock q generated)
  | .fail k message payload =>
      (Scheduler.step o clock s.scheduler (.settleExecute k (.error (.error message)))).map
        fun scheduler =>
          { s.advance scheduler none with payloads := Function.update s.payloads k payload }
  | .onToken k payload =>
      match s.scheduler.runs[k]? with
      | some { stage := .running, job := job, .. } =>
          some { s with streams := s.streams.map (Stream.write job.id (.token payload)) }
      | _ => none
  | .onDone k payload =>
      match s.scheduler.runs[k]? with
      | some { stage := .running, job := job, .. } =>
          some { s with streams := s.streams.map (Stream.write job.id (.done payload)) }
      | _ => none
  | .close i => s.streams[i]?.map fun st => s.close o clock i st
  | .resume i =>
      match s.streams[i]? with
      | some st =>
          match st.settled with
          | some (outcome, payload) =>
              if st.resumed then none
              else some (s.edit i fun st => st.resume numberText outcome payload)
          | none => none
      | none => none

end

end ServeInfer.ShellApp
