import ServeInfer.Config.Env
import ServeInfer.InferenceWorker.RemoteTransport

/-!
# The child that calls the remote service

One request on its input, one reply on its output. The SDK is read from outside: what it is asked,
and what it answers or throws.
-/

namespace ServeInfer.Remote

open Config (JsString EnvValue EnvFiles EnvError ProcessEnv)
open InferenceWorker.RemoteTransport (Reply)

/-- The number nearest to 0.2. -/
def fifth : ℚ := Binary64.round (1 / 5)

/-- `readConfig`'s record. -/
structure RemoteConfig where
  apiKey : JsString
  baseUrl : JsString
  model : JsString
  temperature : ℚ
  topP : ℚ
  maxTokens : ℚ
  timeoutMs : ℚ
  deriving DecidableEq

/-- What `client.chat.completions` is asked, its client's options included. -/
structure ChatRequest where
  apiSubscriptionKey : JsString
  baseUrl : Option JsString
  prompt : JsString
  model : JsString
  temperature : ℚ
  topP : ℚ
  maxTokens : ℚ
  timeoutInSeconds : ℚ
  deriving DecidableEq

/-- An error of the SDK: whether it is a timeout by class or name, whether it is of the SDK's own
class, its `statusCode` where that is a number, its `message`, and its text without one. -/
structure SdkError where
  timeout : Bool
  ofSdk : Bool
  statusCode : Option ℤ
  message : Option JsString
  plainText : JsString
  deriving DecidableEq

structure Sdk where
  /-- What `new SarvamAIClient` throws. -/
  construct : JsString → Option JsString → Option JsString
  /-- What `client.chat.completions` resolves to or rejects with. -/
  completions : ChatRequest → Except SdkError (Option Json)

/-- What a child is started with: its environment and files, the SDK or why it is not installed,
and the texts that the runtime gives to its own errors. -/
structure Child where
  env : ProcessEnv
  files : EnvFiles
  loadSdk : Except JsString Sdk
  fileError : EnvError → JsString
  parseError : JsString → JsString

section

variable (number : JsString → Option ℚ)

/-- `number` is `Number` on strings, where that is finite. -/
def numberOr (raw : Option EnvValue) (fallback : ℚ) : ℚ :=
  match raw with
  | some (.text raw) => if raw.isEmpty then fallback else (number raw).getD fallback
  | _ => fallback

/-- `value || fallback`, for a variable that no object inherits. -/
def textOr (value : Option EnvValue) (fallback : String) : JsString :=
  match value with
  | some (.text value) => if value.isEmpty then Json.units fallback else value
  | _ => Json.units fallback

def readConfig (env : ProcessEnv) (files : EnvFiles) : Except EnvError RemoteConfig :=
  match env.loadEnv files with
  | (_, .error e) => .error e
  | (env, .ok ()) => .ok {
      apiKey := textOr (env.read (Json.units "EDGE_SARVAM_API_KEY")) ""
      baseUrl := textOr (env.read (Json.units "EDGE_REMOTE_ENDPOINT")) ""
      model := textOr (env.read (Json.units "EDGE_SARVAM_MODEL")) "sarvam-105b-conversations"
      temperature := numberOr number (env.read (Json.units "EDGE_SARVAM_TEMPERATURE")) fifth
      topP := numberOr number (env.read (Json.units "EDGE_SARVAM_TOP_P")) 1
      maxTokens := numberOr number (env.read (Json.units "EDGE_SARVAM_MAX_TOKENS")) 2000
      timeoutMs := numberOr number (env.read (Json.units "EDGE_REMOTE_TIMEOUT_MS")) 30000 }

def classify (err : SdkError) : Reply :=
  if err.timeout then
    ⟨504, [], Json.units "sarvam call timed out: " ++ err.message.getD (Json.units "undefined")⟩
  else if err.ofSdk || err.statusCode.isSome then
    ⟨err.statusCode.getD 0, [],
      Json.units "sarvam api error: " ++ err.message.getD (Json.units "undefined")⟩
  else ⟨0, [], Json.units "sarvam call failed: " ++ err.message.getD err.plainText⟩

/-- `value?.[0]`, for a value of a JSON text: of a string it is a character, and no object. -/
def item0 : Json → Option Json
  | .arr items => items.head?
  | .str s => s.head?.map fun u => .str [u]
  | .obj members => (Json.obj members).get? "0"
  | _ => none

/-- `response?.choices?.[0]?.message?.content`. -/
def content (response : Option Json) : Option Json := do
  let choices ← (← response).get? "choices"
  let message ← (← item0 choices).get? "message"
  message.get? "content"

/-- What `call` makes of a response. -/
def replyTo (response : Option Json) : Reply :=
  match content response with
  | some (.str (u :: us)) => ⟨200, u :: us, []⟩
  | _ => ⟨502, [], Json.units "sarvam returned no message content"⟩

/-- What a call comes to: what the SDK was asked, and the reply or the text of what was thrown. -/
structure CallResult where
  asked : Option ChatRequest
  reply : Except JsString Reply

/-- `request.endpoint` is a string where the worker made the request. -/
def call (child : Child) (prompt endpoint : JsString) : CallResult :=
  match readConfig number child.env child.files with
  | .error e => ⟨none, .error (child.fileError e)⟩
  | .ok config =>
      if config.apiKey.isEmpty then
        ⟨none, .ok ⟨401, [],
          Json.units "EDGE_SARVAM_API_KEY is empty, so no prompt left this device"⟩⟩
      else
        match child.loadSdk with
        | .error what => ⟨none, .ok ⟨0, [], Json.units "sarvamai sdk is not installed: " ++ what⟩⟩
        | .ok sdk =>
            let baseUrl := if endpoint.isEmpty then config.baseUrl else endpoint
            let option := if baseUrl.isEmpty then none else some baseUrl
            match sdk.construct config.apiKey option with
            | some what => ⟨none, .error what⟩
            | none =>
                let request := {
                  apiSubscriptionKey := config.apiKey
                  baseUrl := option
                  prompt := prompt
                  model := config.model
                  temperature := config.temperature
                  topP := config.topP
                  maxTokens := config.maxTokens
                  timeoutInSeconds := Binary64.round (config.timeoutMs / 1000) }
                match sdk.completions request with
                | .ok response => ⟨some request, .ok (replyTo response)⟩
                | .error err => ⟨some request, .ok (classify err)⟩

/-- `main`, from the bytes of its input to what the SDK was asked and what is replied. -/
def main (child : Child) (input : List UInt8) : Option ChatRequest × Reply :=
  let raw := Utf8.decode input
  let unreadable (what : JsString) : Reply :=
    ⟨0, [], Json.units "transport request was unreadable: " ++ what⟩
  match Json.parse raw with
  | none => (none, unreadable (child.parseError raw))
  | some request =>
      match request.get? "prompt" with
      | some (.str (u :: us)) =>
          let endpoint :=
            match request.get? "endpoint" with
            | some (.str endpoint) => endpoint
            | _ => []
          let result := call number child (u :: us) endpoint
          match result.reply with
          | .ok reply => (result.asked, reply)
          | .error what => (result.asked, unreadable what)
      | _ => (none, ⟨400, [], Json.units "transport request carried no prompt"⟩)

end

end ServeInfer.Remote
