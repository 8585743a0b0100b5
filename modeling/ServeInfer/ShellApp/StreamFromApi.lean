import ServeInfer.ApiServer.Replies
import ServeInfer.Lib.JsonStringify
import ServeInfer.Lib.TextDecoder

/-!
# The stream between the api server and the shell app

The events that the api server writes, and `_streamFromApi`, which reads them: bytes
to text, text to lines, lines to events, events to the callbacks and the answer. The
request up to its body is left out.
-/

namespace ServeInfer.ShellApp

open ApiServer (JsString SseEvent)

/-- `onToken` or `onDone`, with its payload. -/
inductive Call
  | onToken (payload : Json)
  | onDone (payload : Json)

/-- Why the stream is given up. -/
inductive Rejection
  | cancelled
  | api (message : JsString) (payload : Json)
  | typeError

/-- What the stream comes to. The reason is left out where there was no answer. -/
structure StreamAnswer where
  requestId : JsString
  result : JsString
  device : JsString
  degraded : Bool
  degradedReason : Option Json := none

/-- The variables that `flushEvent` works on, with the calls so far. -/
structure Events where
  event : JsString := Json.units "message"
  dataLines : List JsString := []
  finalDonePayload : Json := .null
  calls : List Call := []

/-- The variables of `_streamFromApi`. -/
structure Reader where
  decoder : Utf8.TextDecoder := {}
  buffer : JsString := []
  events : Events := {}

/-- An error thrown while reading, with the calls before it. -/
structure Thrown where
  calls : List Call
  reason : Rejection

def newline : Utf8.CodeUnit := 0x0A

section

variable (numberText : JsString → JsString)

/-- `sendSse`: the bytes of its two writes. -/
def sendSse (e : SseEvent) : List UInt8 :=
  Utf8.toBytes (Json.units ("event: " ++ e.event ++ "\n")) ++
    Utf8.toBytes (Json.units "data: " ++ e.payload.stringify numberText ++ Json.units "\n\n")

/-- `String(v || fallback)`, where `none` is a `TypeError`. -/
def textOr (v : Option Json) (fallback : String) : Option JsString :=
  match v.filter (Json.truthy numberText) with
  | some v => v.toText? numberText
  | none => some (Json.units fallback)

/-- What an error event throws; `null` has no members to look for. -/
def errorOf (payload : Json) : Rejection :=
  match payload with
  | .null => .typeError
  | payload =>
      ((textOr numberText (payload.get? "error") "api_stream_error").map
        fun message => .api message payload).getD .typeError

/-- `flushEvent`. -/
def Events.flushEvent (e : Events) : Except Thrown Events :=
  if e.dataLines.isEmpty then .ok e
  else
    let payloadRaw := [newline].intercalate e.dataLines
    let payload := (Json.parse payloadRaw).getD (.obj [(Json.units "raw", .str payloadRaw)])
    if e.event = Json.units "token" then
      .ok { e with
        dataLines := []
        calls := e.calls ++ [.onToken payload]
        event := Json.units "message" }
    else if e.event = Json.units "done" then
      .ok { e with
        dataLines := []
        finalDonePayload := payload
        calls := e.calls ++ [.onDone payload]
        event := Json.units "message" }
    else if e.event = Json.units "error" then .error ⟨e.calls, errorOf numberText payload⟩
    else .ok { e with dataLines := [], event := Json.units "message" }

/-- The inner loop's body, for a line as it was cut off. -/
def Events.readLine (e : Events) (line : JsString) : Except Thrown Events :=
  let line := Json.trimEnd line
  if line = [] then e.flushEvent numberText
  else if (Json.units "event:").isPrefixOf line then
    .ok { e with event := Json.trim (line.drop 6) }
  else if (Json.units "data:").isPrefixOf line then
    .ok { e with dataLines := e.dataLines ++ [Json.trimStart (line.drop 5)] }
  else .ok e

/-- The inner loop, and what it leaves of the buffer; `line` is what it has seen of the buffer
since the last newline. -/
def Events.readLines (e : Events) (line : JsString) : JsString → Except Thrown (JsString × Events)
  | [] => .ok (line, e)
  | u :: rest =>
      if u = newline then do
        let e ← e.readLine numberText line
        e.readLines [] rest
      else e.readLines (line ++ [u]) rest

/-- The outer loop's body behind the read. -/
def Reader.receive (r : Reader) (value : List UInt8) : Except Thrown Reader := do
  let (buffer, events) ←
    r.events.readLines numberText [] (r.buffer ++ (r.decoder.decode value).1)
  return { decoder := (r.decoder.decode value).2, buffer := buffer, events := events }

/-- What is returned behind the loop. -/
def streamAnswer (requestId : JsString) (finalDonePayload : Json) : Except Rejection StreamAnswer :=
  if finalDonePayload.truthy numberText then
    match textOr numberText (finalDonePayload.get? "result") "",
        textOr numberText (finalDonePayload.get? "device") "cpu" with
    | some result, some device =>
        .ok
          { requestId := requestId
            result := result
            device := device
            degraded := (finalDonePayload.get? "degraded").any (Json.truthy numberText)
            degradedReason := some
              (((finalDonePayload.get? "degradedReason").filter (Json.truthy numberText)).getD
                .null) }
    | _, _ => .error .typeError
  else
    .ok
      { requestId := requestId
        result := []
        device := Json.units "cpu"
        degraded := false }

/-- The outer loop. `aborted` is the signal before each read, and the body ends behind the
chunks. -/
def readLoop (requestId : JsString) (aborted : ℕ → Bool) (turn : ℕ) (r : Reader) :
    List (List UInt8) → List Call × Except Rejection StreamAnswer
  | [] =>
      if aborted turn then (r.events.calls, .error .cancelled)
      else (r.events.calls, streamAnswer numberText requestId r.events.finalDonePayload)
  | value :: chunks =>
      if aborted turn then (r.events.calls, .error .cancelled)
      else
        match r.receive numberText value with
        | .ok r => readLoop requestId aborted (turn + 1) r chunks
        | .error thrown => (thrown.calls, .error thrown.reason)

/-- `_streamFromApi` on the chunks of the body: the calls it makes, and what it comes to. -/
def streamFromApi (requestId : JsString) (aborted : ℕ → Bool) (chunks : List (List UInt8)) :
    List Call × Except Rejection StreamAnswer :=
  readLoop numberText requestId aborted 0 {} chunks

end

end ServeInfer.ShellApp
