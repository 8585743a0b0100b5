import ServeInfer.Config.Precedence
import ServeInfer.Device.RemoteConsent
import ServeInfer.InferenceWorker.RemoteCodec
import ServeInfer.Lib.Utf16
import ServeInfer.Remote.SarvamTransport

/-!
# A prompt's way to the service and back

The worker writes a request to the child it starts, the child asks the SDK, and the worker reads
the child's reply: what the SDK makes of the prompt is what the remote tier answers.
-/

namespace ServeInfer.Remote

open Config (JsString EnvValue ProcessEnv)
open Device (Environ RemoteResponse envIsSet remoteAnswer remoteExecute)
open InferenceWorker (Bytes bytes)
open InferenceWorker.RemoteTransport
open Utf8 (encode utf16)

section Worker

/-- `ChildResult`. -/
structure ChildResult where
  spawned : Bool := false
  timedOut : Bool := false
  exitStatus : ℤ := -1
  output : Bytes := []
  error : Bytes := []

/-- `envNumber`. -/
def envNumber (environ : Environ) (name : String) (fallback : ℤ) : ℤ :=
  match Text.written ((environ name).getD "").toList with
  | none => fallback
  | some value => if value ≤ 0 ∨ 2 ^ 63 ≤ value then fallback else value

/-- `makeRemoteTransport`; `run` is `runTransportChild` with the child's budget and its input. -/
def makeRemoteTransport (environ : Environ) (run : ℤ → Bytes → ChildResult) :
    Option (Bytes → Bytes → RemoteReading) :=
  if !envIsSet environ "EDGE_SARVAM_API_KEY" then none
  else
    let callTimeoutMs := CInt.toInt (envNumber environ "EDGE_REMOTE_TIMEOUT_MS" 30000)
    let childTimeoutMs := callTimeoutMs + 1000
    some fun prompt endpoint =>
      let child := run childTimeoutMs (buildRemoteRequestJson prompt endpoint)
      if !child.spawned then ⟨0, [], child.error⟩
      else if child.timedOut then
        ⟨504, [], bytes ("remote transport child exceeded " ++ toString childTimeoutMs ++
          "ms and was killed")⟩
      else
        match parseRemoteResponseJson child.output with
        | some reading => reading
        | none =>
            ⟨0, [],
              if child.exitStatus = 0 then
                bytes "remote transport child emitted no readable response line"
              else
                bytes ("remote transport child exited " ++ toString child.exitStatus ++
                  " without a response line")⟩

/-- Bytes as the text they spell. -/
def textOf (b : Bytes) : String := String.ofList ((Utf8.points (Utf8.decode b)).map Char.ofNat)

/-- The transport on texts. -/
def onTexts (transport : Bytes → Bytes → RemoteReading) : Device.RemoteTransport := fun request =>
  let reading := transport (encode request.prompt.toList) (encode request.endpoint.toList)
  .ok { status := reading.status, text := textOf reading.text, error := textOf reading.error }

theorem textOf_encode (t : List Char) : textOf (encode t) = String.ofList t := by
  rw [textOf, Utf8.decode_encode, Utf8.points_utf16, List.map_map]
  congr 1
  calc
    _ = t.map id := List.map_congr_left fun c _ => by simp
    _ = t := List.map_id t

end Worker

section Lookup

variable {initial : OrderedMap JsString JsString}

/-- The child has the worker's environment. -/
def Inherits (environ : Environ) (initial : OrderedMap JsString JsString) : Prop :=
  ∀ name : String, initial.get? (utf16 name.toList) = (environ name).map fun v => utf16 v.toList

/-- What a process was started with is what it reads after a load, unless a line of `.env` has the
name only when it is cut. -/
theorem read_of_initial {child : Child} {name value : JsString}
    (hstart : child.env = .start initial) (hname : Utf8.cString name = name) (hne : name ≠ [])
    (hplain : Config.Plain name (child.files.envFile.entries.getD []))
    (hvalue : initial.get? name = some value) :
    (child.env.loadEnv child.files).1.read name = some (.text value) := by
  have hholds := ((ProcessEnv.holds_start initial).look child.files).1
  have hoverrides : Config.Plain name
      ((({} : Config.Reading).look child.files).1.overrides.getD []) := by
    obtain hnone | hsome := Config.Reading.overrides_look child.files
    · rw [hnone]
      exact fun e he => absurd he List.not_mem_nil
    · rw [hsome]
      exact hplain
  have htext := Config.Reading.textOf_plain initial hname hne hoverrides
  rw [hvalue] at htext
  rw [hstart, hholds.read, Config.Reading.valueOf, hname, htext]
  rfl

end Lookup

section Reply

variable {log : Bytes} {status : ℤ}

/-- The worker reads the reply that the child writes behind its log. -/
theorem parse_line (hlog : log = [] ∨ log.getLast? = some 0x0A) (hstatus : status.natAbs < 2 ^ 53)
    (text error : List Char) :
    parseRemoteResponseJson (log ++ Reply.line ⟨status, utf16 text, utf16 error⟩) =
      some ⟨status, encode text, encode error⟩ := by
  have htext := spellsText_insideText text
  have herror := spellsText_insideText error
  have hlong : Text.saturate status = status := Text.saturate_eq (by omega) (by omega)
  rw [line_eq, parse_replyText hlog htext.inside.1 herror.inside.1 htext.inside.2 herror.inside.2,
    htext.jsonUnescape, herror.jsonUnescape, Binary64.written_eq hstatus, hlong]

end Reply

section Request

variable (number : JsString → Option ℚ) {child : Child}

theorem utf16_ne_nil {t : List Char} (ht : t ≠ []) : utf16 t ≠ [] := by
  intro hempty
  have hpoints := Utf8.points_utf16 t
  rw [hempty] at hpoints
  exact ht (List.map_eq_nil_iff.mp hpoints.symm)

/-- The child answers the request that the worker makes. -/
theorem main_request {prompt : List Char} (hprompt : prompt ≠ []) (endpoint : List Char)
    {asked : Option ChatRequest} {reply : Reply}
    (hcall : call number child (utf16 prompt) (utf16 endpoint) = ⟨asked, .ok reply⟩) :
    main number child (buildRemoteRequestJson (encode prompt) (encode endpoint)) =
      (asked, reply) := by
  obtain ⟨u, us, hunits⟩ := List.exists_cons_of_ne_nil (utf16_ne_nil hprompt)
  have hfirst : (Json.obj [(Json.units "prompt", .str (utf16 prompt)),
      (Json.units "endpoint", .str (utf16 endpoint))]).get? "prompt" = some (.str (u :: us)) := by
    rw [hunits]
    rfl
  have hsecond : (Json.obj [(Json.units "prompt", .str (utf16 prompt)),
      (Json.units "endpoint", .str (utf16 endpoint))]).get? "endpoint" =
        some (.str (utf16 endpoint)) := rfl
  rw [hunits] at hcall
  simp only [main, parse_request, hfirst, hsecond, hcall]

end Request

/-- A worker that may use the service, and the child it starts: it runs in the worker's environment,
reads its two files and finds the SDK. No line of `.env` has the key's name only when
`process.env` cuts it. -/
structure RemoteHop where
  environ : Environ
  key : String
  initial : OrderedMap JsString JsString
  child : Child
  sdk : Sdk
  log : Bytes
  keyed : environ "EDGE_SARVAM_API_KEY" = some key
  named : key.toList ≠ []
  allowed : environ "EDGE_REMOTE_FALLBACK_ALLOWED" = some "1"
  started : child.env = .start initial
  inherits : Inherits environ initial
  loads : (child.env.loadEnv child.files).2 = .ok ()
  unforged : Config.Plain (Json.units "EDGE_SARVAM_API_KEY")
    (child.files.envFile.entries.getD [])
  installed : child.loadSdk = .ok sdk
  constructs : ∀ apiKey baseUrl, sdk.construct apiKey baseUrl = none
  logged : log = [] ∨ log.getLast? = some 0x0A

namespace RemoteHop

variable (number : JsString → Option ℚ) (hop : RemoteHop)

/-- The child runs to its end; its reply stands behind what else it wrote. -/
def run (_budget : ℤ) (input : Bytes) : ChildResult where
  spawned := true
  exitStatus := 0
  output := hop.log ++ (main number hop.child input).2.line

/-- What the remote tier of the worker makes of a prompt. -/
def execute (prompt : String) (onToken : Bool) : List String × Device.BackendExecution :=
  remoteExecute ((makeRemoteTransport hop.environ (hop.run number)).map onTexts) hop.environ prompt
    onToken

def endpoint : String := (hop.environ "EDGE_REMOTE_ENDPOINT").getD ""

theorem envIsSet_key : envIsSet hop.environ "EDGE_SARVAM_API_KEY" = true := by
  have hnamed : hop.key ≠ "" := fun h => hop.named (by rw [h]; rfl)
  simp [envIsSet, hop.keyed, hnamed]

theorem probeRemote_available : Device.probeRemote hop.environ = .available := by
  simp [Device.probeRemote, hop.envIsSet_key, hop.allowed]

/-- The child has the worker's key. -/
theorem exists_config :
    ∃ config, readConfig number hop.child.env hop.child.files = .ok config ∧
      config.apiKey = utf16 hop.key.toList := by
  have hname : utf16 "EDGE_SARVAM_API_KEY".toList = Json.units "EDGE_SARVAM_API_KEY" := by decide
  have hvalue : hop.initial.get? (Json.units "EDGE_SARVAM_API_KEY") =
      some (utf16 hop.key.toList) := by
    rw [← hname, hop.inherits, hop.keyed]
    rfl
  have hkept : Utf8.cString (Json.units "EDGE_SARVAM_API_KEY") =
      Json.units "EDGE_SARVAM_API_KEY" := by decide
  have hread := read_of_initial hop.started hkept (by decide) hop.unforged hvalue
  have hloads := hop.loads
  unfold readConfig
  rcases hload : hop.child.env.loadEnv hop.child.files with ⟨env, loaded⟩
  rw [hload] at hloads hread
  change loaded = .ok () at hloads
  subst hloads
  refine ⟨_, rfl, ?_⟩
  have hkey := utf16_ne_nil hop.named
  simp [textOr, hread, hkey]

/-- The SDK is asked once, with the worker's prompt, key and endpoint. -/
theorem exists_asked (prompt : List Char) :
    ∃ asked : ChatRequest, asked.prompt = utf16 prompt ∧
      asked.apiSubscriptionKey = utf16 hop.key.toList ∧
      (hop.endpoint ≠ "" → asked.baseUrl = some (utf16 hop.endpoint.toList)) ∧
      call number hop.child (utf16 prompt) (utf16 hop.endpoint.toList) =
        ⟨some asked, .ok (match hop.sdk.completions asked with
          | .ok response => replyTo response
          | .error err => classify err)⟩ := by
  obtain ⟨config, hconfig, hkey⟩ := hop.exists_config number
  have hnamed : config.apiKey.isEmpty = false := by
    rw [hkey, List.isEmpty_eq_false_iff]
    exact utf16_ne_nil hop.named
  let endpoint := utf16 hop.endpoint.toList
  let baseUrl := if endpoint.isEmpty then config.baseUrl else endpoint
  refine ⟨{
    apiSubscriptionKey := config.apiKey
    baseUrl := if baseUrl.isEmpty then none else some baseUrl
    prompt := utf16 prompt
    model := config.model
    temperature := config.temperature
    topP := config.topP
    maxTokens := config.maxTokens
    timeoutInSeconds := Binary64.round (config.timeoutMs / 1000) }, rfl, hkey, ?_, ?_⟩
  · intro hendpoint
    have hne : hop.endpoint.toList ≠ [] := by simpa using hendpoint
    have hempty : (utf16 hop.endpoint.toList).isEmpty = false := by
      rw [List.isEmpty_eq_false_iff]
      exact utf16_ne_nil hne
    simp [baseUrl, endpoint, hempty]
  · simp only [call, hconfig, hnamed, hop.installed, hop.constructs]
    simp only [Bool.false_eq_true, if_false]
    split <;> rename_i hanswer <;> rw [hanswer]

/-- A reply that is text is what the remote tier answers by. -/
theorem execute_eq {prompt : String} (hprompt : prompt ≠ "") (onToken : Bool)
    {asked : Option ChatRequest} {status : ℤ} {text error : List Char}
    (hstatus : status.natAbs < 2 ^ 53)
    (hcall : call number hop.child (utf16 prompt.toList) (utf16 hop.endpoint.toList) =
      ⟨asked, .ok ⟨status, utf16 text, utf16 error⟩⟩) :
    hop.execute number prompt onToken =
      remoteAnswer ⟨status, String.ofList text, String.ofList error⟩ onToken := by
  have hnonempty : prompt.toList ≠ [] := by simpa using hprompt
  have hmain := main_request number hnonempty hop.endpoint.toList hcall
  have hread := parse_line hop.logged hstatus text error
  have hanswer : (makeRemoteTransport hop.environ (hop.run number)).map
      (fun transport => onTexts transport ⟨hop.endpoint, prompt⟩) =
        some (.ok ⟨status, String.ofList text, String.ofList error⟩) := by
    simp only [makeRemoteTransport, hop.envIsSet_key, run, onTexts, Bool.not_true,
      Bool.false_eq_true, if_false, Option.map_some]
    rw [hmain, hread]
    simp only [textOf_encode]
  obtain ⟨transport, htransport, hsent⟩ := Option.map_eq_some_iff.mp hanswer
  have hrequest : Device.remoteRequest (some (onTexts transport)) hop.environ prompt =
      some ⟨hop.endpoint, prompt⟩ := if_pos ⟨hop.probeRemote_available, rfl⟩
  rw [execute, htransport, Option.map_some, Device.remoteExecute_of_request hrequest, hsent]

/-- A reply without text, its error told with a message of the SDK. -/
theorem execute_of_error {prompt : String} (hprompt : prompt ≠ "") (onToken : Bool)
    {asked : Option ChatRequest} {status : ℤ} (hstatus : status.natAbs < 2 ^ 53) (what : String)
    (hwhat : utf16 what.toList = Json.units what) (message : List Char)
    (hcall : call number hop.child (utf16 prompt.toList) (utf16 hop.endpoint.toList) =
      ⟨asked, .ok ⟨status, [], Json.units what ++ utf16 message⟩⟩) :
    hop.execute number prompt onToken =
      remoteAnswer ⟨status, "", what ++ String.ofList message⟩ onToken := by
  rw [← hwhat, ← Utf8.utf16_append] at hcall
  have hexecute : hop.execute number prompt onToken =
      remoteAnswer ⟨status, String.ofList [], String.ofList (what.toList ++ message)⟩ onToken :=
    hop.execute_eq number hprompt onToken hstatus hcall
  rw [hexecute, String.ofList_append, String.ofList_toList]

theorem remoteAnswer_fault {status : ℤ} {fault : Device.DeviceFault} {error : String}
    (hfault : Device.faultFromRemoteStatus status = fault) (hne : fault ≠ .none)
    (herror : error ≠ "") (onToken : Bool) :
    remoteAnswer ⟨status, "", error⟩ onToken =
      ([], { fault := fault, detail := error, vendorStatus := status }) := by
  simp [remoteAnswer, hfault, hne, herror]

end RemoteHop

section Served

theorem utf16_injective {t t' : List Char} (h : utf16 t = utf16 t') : t = t' := by
  have hpoints := congrArg Utf8.points h
  rw [Utf8.points_utf16, Utf8.points_utf16] at hpoints
  exact List.map_injective_iff.mpr (fun _ _ => Char.toNat_inj.mp) hpoints

/-- The environment of a worker that may use the service. -/
def optedIn : Environ := fun name =>
  if name = "EDGE_SARVAM_API_KEY" then some "key"
  else if name = "EDGE_REMOTE_FALLBACK_ALLOWED" then some "1"
  else none

/-- The same environment, as the child finds it. -/
def optedInChild : OrderedMap JsString JsString where
  entries :=
    [(Json.units "EDGE_SARVAM_API_KEY", Json.units "key"),
      (Json.units "EDGE_REMOTE_FALLBACK_ALLOWED", Json.units "1")]
  nodup := by decide

theorem inherits_optedIn : Inherits optedIn optedInChild := by
  intro name
  have hfirst : Json.units "EDGE_SARVAM_API_KEY" = utf16 name.toList ↔
      name = "EDGE_SARVAM_API_KEY" := by
    constructor
    · intro h
      exact String.toList_injective (utf16_injective (h.symm.trans (by decide)))
    · rintro rfl
      decide
  have hsecond : Json.units "EDGE_REMOTE_FALLBACK_ALLOWED" = utf16 name.toList ↔
      name = "EDGE_REMOTE_FALLBACK_ALLOWED" := by
    constructor
    · intro h
      exact String.toList_injective (utf16_injective (h.symm.trans (by decide)))
    · rintro rfl
      decide
  simp only [OrderedMap.get?, optedInChild, optedIn, List.find?_cons, List.find?_nil, hfirst,
    hsecond]
  by_cases hkey : name = "EDGE_SARVAM_API_KEY"
  · simp only [hkey, decide_true, if_true, Option.map_some]
    decide
  · by_cases hallowed : name = "EDGE_REMOTE_FALLBACK_ALLOWED"
    · subst hallowed
      decide
    · simp [hkey, hallowed]

/-- A service that greets. -/
def greeter : Sdk where
  construct := fun _ _ => none
  completions := fun _ =>
    let message := Json.obj [(Json.units "content", .str (utf16 ['h', 'i']))]
    .ok (some (.obj [(Json.units "choices", .arr [.obj [(Json.units "message", message)]])]))

def greeting : RemoteHop where
  environ := optedIn
  key := "key"
  initial := optedInChild
  child := {
    env := .start optedInChild
    files := { exampleFile := .absent, envFile := .absent }
    loadSdk := .ok greeter
    fileError := fun _ => []
    parseError := fun _ => [] }
  sdk := greeter
  log := []
  keyed := rfl
  named := by decide
  allowed := rfl
  started := rfl
  inherits := inherits_optedIn
  loads := rfl
  unforged := fun _ he => absurd he List.not_mem_nil
  installed := rfl
  constructs := fun _ _ => rfl
  logged := .inl rfl

end Served

end ServeInfer.Remote
