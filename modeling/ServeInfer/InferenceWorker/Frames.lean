import ServeInfer.Device.Router

/-!
# The frames of a worker's answer

`handleClient` of a worker past `init`, from its reading of the job on: it routes
the prompt and writes what it has of it on the job's connection, token by token and
at the end as a result.
-/

namespace ServeInfer.InferenceWorker

open Device

abbrev Bytes := List UInt8

/-- The bytes of a `std::string`; a character is the byte of its number. -/
def bytes (s : String) : Bytes := s.toList.map fun c => c.toNat.toUInt8

/-- A turn of `jsonEscape`'s loop. -/
def escape (ch : UInt8) : Bytes :=
  if ch = 0x5C then bytes "\\\\"
  else if ch = 0x22 then bytes "\\\""
  else if ch = 0x0A then bytes "\\n"
  else if ch = 0x0D then bytes "\\r"
  else if ch = 0x09 then bytes "\\t"
  else [ch]

/-- `Worker::jsonEscape`. -/
def jsonEscape (input : Bytes) : Bytes := input.flatMap escape

/-- `deviceResultFields`; there is a reason when the worker is degraded. -/
def deviceResultFields (device : Bytes) (degradedReason : Option Bytes) : Bytes :=
  bytes ",\"device\":\"" ++ device ++ bytes "\",\"degraded\":" ++
    match degradedReason with
    | none => bytes "false"
    | some reason => bytes "true" ++ bytes ",\"degradedReason\":\"" ++ jsonEscape reason ++ bytes "\""

/-- A line that `handleClient` writes, by its texts. -/
inductive Frame (α : Type)
  | token (requestId piece : α)
  | result (requestId text device : α) (degradedReason : Option α)
  | error (requestId message : α)
  deriving DecidableEq, Repr

/-- `tokenJson`, `resultJson` and `doneJson`, and `errorJson`. -/
def Frame.json : Frame Bytes → Bytes
  | .token requestId piece =>
      bytes "\x7b\"type\":\"token\",\"requestId\":\"" ++ jsonEscape requestId ++
        bytes "\",\"token\":\"" ++ jsonEscape piece ++ bytes "\"\x7d\n"
  | .result requestId text device degradedReason =>
      bytes "\x7b\"type\":\"result\",\"requestId\":\"" ++ jsonEscape requestId ++
        bytes "\",\"text\":\"" ++ jsonEscape text ++ bytes "\"" ++
        deviceResultFields device degradedReason ++ bytes "\x7d\n"
  | .error requestId message =>
      bytes "\x7b\"type\":\"error\",\"requestId\":\"" ++ jsonEscape requestId ++
        bytes "\",\"error\":\"" ++ jsonEscape message ++ bytes "\"\x7d\n"

/-- Whether more frames follow this one. -/
def Frame.isToken {α : Type} : Frame α → Bool
  | .token _ _ => true
  | _ => false

/-- Frames as a worker writes them: what comes before the last one are tokens. -/
def IsReply (frames : List (Frame Bytes)) : Prop := ∀ f ∈ frames.dropLast, f.isToken = true

instance (frames : List (Frame Bytes)) : Decidable (IsReply frames) :=
  inferInstanceAs (Decidable (∀ f ∈ frames.dropLast, f.isToken = true))

theorem IsReply.tail {f : Frame Bytes} {fs : List (Frame Bytes)} (h : IsReply (f :: fs)) :
    IsReply fs := by
  intro e he
  cases fs with
  | nil => cases he
  | cons f' fs => exact h e (List.mem_cons_of_mem f he)

/-- What the connection takes of the frames, one `sendAll` after the other. -/
def written (frames : List (Frame Bytes)) : Bytes := frames.flatMap Frame.json

structure InferenceJob where
  requestId : String
  prompt : String
  stream : Bool := false
  deriving DecidableEq, Repr

/-- `Worker`, as far as an answer depends on it. -/
structure Worker where
  router : Router
  activeDevice : String := "cpu"
  deriving DecidableEq, Repr

namespace Worker

variable (env : RouterEnv)

/-- The router has been asked, and the worker takes over its tier. -/
def routed (w : Worker) (prompt : String) (onToken : Bool) : RouteResult × Worker :=
  let (result, router) := w.router.route env prompt onToken
  (result, { router := router, activeDevice := router.ladder.active })

/-- `generateWithFallback`. -/
def generateWithFallback (w : Worker) (prompt : String) : String × Worker :=
  let (routed, w) := w.routed env prompt false
  if routed.ok then (routed.text, w)
  else (if routed.text.isEmpty then "[error: " ++ routed.detail ++ "]" else routed.text, w)

/-- `streamWithFallback`: what `onToken` was called with, and `merged`. -/
def streamWithFallback (w : Worker) (prompt : String) : List String × String × Worker :=
  let (routed, w') := w.routed env prompt true
  (w'.router.streamed.drop w.router.streamed.length, routed.text, w')

/-- The frame of a result, with the fields of the worker's device. -/
def resultFrame (w : Worker) (requestId text : String) : Frame Bytes :=
  .result (bytes requestId) (bytes text) (bytes w.activeDevice)
    (if w.router.ladder.degraded then some (bytes w.router.ladder.degradedReason) else none)

/-- The frames that `handleClient` writes of a job, and the worker after it. -/
def answer (w : Worker) (job : InferenceJob) : List (Frame Bytes) × Worker :=
  if job.stream then
    let (tokens, merged, w) := w.streamWithFallback env job.prompt
    (tokens.map (fun token => .token (bytes job.requestId) (bytes token)) ++
      [w.resultFrame job.requestId merged], w)
  else
    let (text, w) := w.generateWithFallback env job.prompt
    ([w.resultFrame job.requestId text], w)

end Worker

end ServeInfer.InferenceWorker
