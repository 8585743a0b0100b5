import ServeInfer.ApiServer.Types

/-!
# What the inference routes answer

The replies of `POST /infer` and the events of `GET /infer/stream`, by how the
run they waited for was settled.
-/

namespace ServeInfer.ApiServer

/-- `res.status(..).json(..)` with the headers set before it. -/
structure HttpReply where
  status : ℕ := 200
  headers : List (String × JsString) := []
  body : Json

/-- `sendSse`. -/
structure SseEvent where
  event : String
  payload : Json

/-- What a stream whose headers may have gone out is given. -/
inductive StreamReply
  | json (reply : HttpReply)
  | event (e : SseEvent)

namespace Replies

def object (members : List (String × Json)) : Json :=
  .obj (members.map fun m => (Json.units m.1, m.2))

def number (n : ℕ) : Json := .num (Json.units (toString n))

def text (s : String) : Json := .str (Json.units s)

/-- A string, or `null`. -/
def nullable (s : Option JsString) : Json := (s.map Json.str).getD .null

/-- `retryAfterSeconds`, or what the routes put in its place. -/
def retryAfter (err : WorkerPoolError) (fallback : ℕ) : ℕ := err.retryAfterSeconds.getD fallback

def promptRequired : HttpReply where
  status := 400
  body := object [("error", text "prompt_required")]

def requestInFlight (requestId : JsString) : HttpReply where
  status := 409
  body := object [("error", text "request_in_flight"), ("requestId", .str requestId)]

/-- The members that a finished answer has on both routes. -/
def answer (requestId : JsString) (replay : Bool) (result : InferenceResult) : Json :=
  object [("requestId", .str requestId), ("result", .str result.text),
    ("device", .str result.device), ("degraded", .bool result.degraded),
    ("degradedReason", nullable result.degradedReason), ("replay", .bool replay)]

/-- `String(result.device || 'cpu')`. -/
def deviceHeader (device : JsString) : JsString :=
  if device.isEmpty then Json.units "cpu" else device

/-- The answer of `POST /infer`. -/
def postAnswer (requestId : JsString) (replay : Bool) (result : InferenceResult) : HttpReply where
  headers :=
    [("X-Idempotent-Replay", Json.units (toString replay)),
      ("X-Inference-Device", deviceHeader result.device),
      ("X-Inference-Degraded", Json.units (toString result.degraded)),
      ("X-Latency-Mode", Json.units (if result.degraded then "degraded" else "normal"))] ++
    ((result.degradedReason.filter fun reason => !reason.isEmpty).map fun reason =>
      ("X-Degraded-Reason", reason)).toList
  body := answer requestId replay result

/-- A 503 that says when to come back. -/
def retryLater (edgeError error : String) (seconds : ℕ) (requestId : JsString) : HttpReply where
  status := 503
  headers := [("Retry-After", Json.units (toString seconds)), ("X-Edge-Error", Json.units edgeError)]
  body := object [("error", text error), ("retryAfterSeconds", number seconds),
    ("requestId", .str requestId)]

def workerUnavailable (requestId : JsString) (err : WorkerPoolError) : Json :=
  object [("error", text "worker_unavailable"), ("message", .str err.message),
    ("requestId", .str requestId)]

/-- What `POST /infer` makes of an error. -/
def postError (requestId : JsString) (err : WorkerPoolError) : HttpReply :=
  if err.code = .workerCrashed then
    retryLater "worker_crash" "worker_crashed" (retryAfter err 2) requestId
  else if err.code = .noReadyWorkers then
    retryLater "no_ready_workers" "no_ready_workers" (retryAfter err 1) requestId
  else { status := 502, body := workerUnavailable requestId err }

/-- What `GET /infer/stream` makes of an error. -/
def streamError (headersSent : Bool) (requestId : JsString) (err : WorkerPoolError) : StreamReply :=
  if err.code = .workerCrashed then
    if headersSent then
      .event ⟨"error", (retryLater "worker_crash" "worker_crashed" (retryAfter err 2) requestId).body⟩
    else .json (retryLater "worker_crash" "worker_crashed" (retryAfter err 2) requestId)
  else if headersSent then .event ⟨"error", workerUnavailable requestId err⟩
  else .json { status := 502, body := workerUnavailable requestId err }

/-- What `POST /infer` answers when its promise is settled. -/
def post (requestId : JsString) (replay : Bool) : Outcome → HttpReply
  | .resolved result => postAnswer requestId replay result
  | .rejected err => postError requestId err

end Replies

end ServeInfer.ApiServer
