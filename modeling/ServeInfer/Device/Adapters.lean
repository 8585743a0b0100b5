import ServeInfer.Device.Router

/-!
# The adapters a worker registers

`runThroughEngine` serves the llama tiers and the npu, Core ML refuses, and the
remote tier hands the prompt to a transport. The engine, the environment variables
and the transport are read from outside.
-/

namespace ServeInfer.Device

/-- What `InferEngine` does with a prompt: the tokens `generateStreaming` passes on, the text
`generate` returns, and `lastFault` with its detail afterwards. -/
structure EngineRun where
  tokens : List String
  text : String
  fault : DeviceFault := .none
  detail : String := ""

/-- `notCompiledIn`. -/
def notCompiledIn (detail : String) : BackendExecution := { fault := .unavailable, detail := detail }

/-- `runThroughEngine`, with the tokens that reach the sink; no engine may be bound. -/
def runThroughEngine (engine : Option EngineRun) (onToken : Bool) :
    List String × BackendExecution :=
  match engine with
  | none => ([], { fault := .unavailable, detail := "inference engine is not initialized" })
  | some run =>
      if onToken then
        (run.tokens, { text := run.tokens.foldl (· ++ ·) "", fault := run.fault, detail := run.detail })
      else ([], { text := run.text, fault := run.fault, detail := run.detail })

/-- `QualcommHexagonBackend::execute`. -/
def hexagonExecute (routable : Bool) (engine : Option EngineRun) (onToken : Bool) :
    List String × BackendExecution :=
  if !routable then
    ([], notCompiledIn ("qualcomm hexagon backend is not compiled into this build " ++
      "(GGML_HEXAGON=OFF, needs HEXAGON_SDK_ROOT and a windows arm64 target)"))
  else if engine.isNone then
    ([], notCompiledIn ("qualcomm hexagon backend is compiled in (GGML_USE_HEXAGON) but no " ++
      "inference engine is bound to the npu adapter"))
  else runThroughEngine engine onToken

/-- `CoreMlAneBackend::execute`. -/
def coreMlExecute : List String × BackendExecution :=
  ([], notCompiledIn ("core ml / ane adapter has no compiled model in this build (needs an " ++
    "MLModel and MLComputeUnits.cpuAndNeuralEngine on macOS)"))

/-- `getenv`. -/
abbrev Environ := String → Option String

/-- `envIsSet`. -/
def envIsSet (environ : Environ) (name : String) : Bool :=
  match environ name with
  | some value => !value.isEmpty
  | none => false

/-- `probeRemote`. -/
def probeRemote (environ : Environ) : ProbeResult :=
  if !envIsSet environ "EDGE_SARVAM_API_KEY" && !envIsSet environ "EDGE_REMOTE_ENDPOINT" then
    .runtimeMissing
  else if environ "EDGE_REMOTE_FALLBACK_ALLOWED" = some "1" then .available
  else .policyDisabled

/-- `RemoteRequest`. -/
structure RemoteRequest where
  endpoint : String
  prompt : String
  deriving DecidableEq, Repr

/-- `RemoteResponse`. -/
structure RemoteResponse where
  status : ℤ := 0
  text : String := ""
  error : String := ""
  deriving DecidableEq, Repr

/-- `RemoteTransport`; it may throw. -/
abbrev RemoteTransport := RemoteRequest → Except String RemoteResponse

/-- `faultFromRemoteStatus`. -/
def faultFromRemoteStatus (status : ℤ) : DeviceFault :=
  if 200 ≤ status ∧ status < 300 then .none
  else if status = 0 then .runtimeError
  else if status = 400 ∨ status = 413 ∨ status = 415 ∨ status = 422 then .unsupportedOp
  else if status = 401 ∨ status = 403 ∨ status = 404 then .unavailable
  else .runtimeError

/-- The request `RemoteInferenceBackend::execute` hands to its transport, if it comes to that. -/
def remoteRequest (transport : Option RemoteTransport) (environ : Environ) (prompt : String) :
    Option RemoteRequest :=
  if probeRemote environ = .available ∧ transport.isSome then
    some { endpoint := (environ "EDGE_REMOTE_ENDPOINT").getD "", prompt := prompt }
  else none

/-- `RemoteInferenceBackend::execute` once the transport has answered. -/
def remoteAnswer (response : RemoteResponse) (onToken : Bool) : List String × BackendExecution :=
  if faultFromRemoteStatus response.status ≠ .none then
    ([], { fault := faultFromRemoteStatus response.status
           detail :=
             if response.error.isEmpty then
               "remote endpoint returned status " ++ toString response.status
             else response.error
           vendorStatus := response.status })
  else
    (if onToken && !response.text.isEmpty then [response.text] else [],
      { text := response.text, vendorStatus := response.status })

/-- `RemoteInferenceBackend::execute`; the policy is read again at every call. -/
def remoteExecute (transport : Option RemoteTransport) (environ : Environ) (prompt : String)
    (onToken : Bool) : List String × BackendExecution :=
  match probeRemote environ, transport with
  | .policyDisabled, _ =>
      ([], { fault := .unavailable
             detail := "remote fallback is not opted in (EDGE_REMOTE_FALLBACK_ALLOWED is not 1), " ++
               "so the prompt stays on this device" })
  | .available, none =>
      ([], notCompiledIn ("no remote transport was built for this worker (EDGE_SARVAM_API_KEY " ++
        "was empty at startup); the tier is configured but nothing can serve it"))
  | .available, some send =>
      match send { endpoint := (environ "EDGE_REMOTE_ENDPOINT").getD "", prompt := prompt } with
      | .error what => ([], { fault := .runtimeError, detail := "remote transport threw: " ++ what })
      | .ok response => remoteAnswer response onToken
  | _, _ =>
      ([], { fault := .unavailable
             detail := "remote is not configured (neither EDGE_SARVAM_API_KEY nor " ++
               "EDGE_REMOTE_ENDPOINT is set)" })

/-- What an adapter answers is what it has emitted. -/
def Concatenates (out : List String × BackendExecution) : Prop := out.2.text = String.join out.1

theorem concatenates_runThroughEngine (engine : Option EngineRun) :
    Concatenates (runThroughEngine engine true) := by
  cases engine with
  | none => exact String.join_nil.symm
  | some run => exact (String.join_eq_foldl).symm

theorem concatenates_hexagonExecute (routable : Bool) (engine : Option EngineRun) :
    Concatenates (hexagonExecute routable engine true) := by
  unfold hexagonExecute
  split
  · exact String.join_nil.symm
  · split
    · exact String.join_nil.symm
    · exact concatenates_runThroughEngine engine

theorem concatenates_coreMlExecute : Concatenates coreMlExecute := String.join_nil.symm

theorem concatenates_remoteAnswer (response : RemoteResponse) :
    Concatenates (remoteAnswer response true) := by
  unfold remoteAnswer
  split
  · exact String.join_nil.symm
  · cases hempty : response.text.isEmpty with
    | true => simpa [Concatenates] using hempty
    | false => simp [Concatenates]

theorem concatenates_remoteExecute (transport : Option RemoteTransport) (environ : Environ)
    (prompt : String) : Concatenates (remoteExecute transport environ prompt true) := by
  unfold remoteExecute
  split
  · exact String.join_nil.symm
  · exact String.join_nil.symm
  · split
    · exact String.join_nil.symm
    · exact concatenates_remoteAnswer _
  · exact String.join_nil.symm

end ServeInfer.Device
