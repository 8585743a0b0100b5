import Mathlib.Data.Int.Notation
import Mathlib.Data.List.Basic

/-!
# The inference engine

What a load of the model makes of the engine, in a build with llama. Whether the
library loads the file, with layers on the GPU and without, and whether it makes a
context are read from outside. Freeing model and context gives nothing of the device
back: once the GPU has been asked for, its context stays until the process exits.
-/

namespace ServeInfer.InferenceWorker

/-- What the library answers in one `loadModel`: does the file load when the GPU is asked for, does
it load with no layer on the GPU, and is there a context? -/
structure LoadOutcome where
  offloaded : Bool
  plain : Bool
  context : Bool
  deriving DecidableEq, Repr

/-- `InferEngine`, as far as its device depends on it, with the `n_gpu_layers` of its calls of
`llama_model_load_from_file`. -/
structure InferEngine where
  gpuLayers : ℤ
  forceCpu : Bool
  gpuOk : Bool := true
  deviceInitialized : Bool := false
  loaded : Bool := false
  layersAsked : List ℤ := []
  deriving DecidableEq, Repr

inductive DeviceFallbackAction
  | reloadInPlace
  | reexecAsCpu
  deriving DecidableEq, Repr

namespace InferEngine

def isUsingGPU (e : InferEngine) : Bool := e.gpuOk

def deviceResourcesResident (e : InferEngine) : Bool := e.deviceInitialized

/-- A call of `llama_model_load_from_file`. -/
def ask (e : InferEngine) (layers : ℤ) : InferEngine :=
  { e with layersAsked := e.layersAsked ++ [layers] }

/-- `loadModel`. -/
def loadModel (e : InferEngine) (o : LoadOutcome) : Bool × InferEngine :=
  let e := if e.forceCpu then { e with gpuOk := false } else e
  let layers := if e.gpuOk then e.gpuLayers else 0
  let e := if e.gpuOk then { e with deviceInitialized := true } else e
  let model := if e.gpuOk then o.offloaded else o.plain
  let e := e.ask layers
  let (model, e) :=
    if !model && e.gpuOk then (o.plain, { e with gpuOk := false }.ask 0) else (model, e)
  if !model then (false, e)
  else if !o.context then (false, e)
  else (true, { e with loaded := true })

/-- `reloadOn`; the old model and context are freed first. -/
def reloadOn (e : InferEngine) (forceCpu : Bool) (o : LoadOutcome) : Bool × InferEngine :=
  { e with
    loaded := false
    forceCpu := forceCpu
    gpuOk := !forceCpu }.loadModel o

/-- `init`. -/
def init (e : InferEngine) (modelPath : String) (o : LoadOutcome) : Bool × InferEngine :=
  if modelPath.isEmpty then (false, e) else e.loadModel o

/-- `requiresProcessRestartForCpuOnly`. -/
def requiresProcessRestartForCpuOnly (owner : InferEngine) (previous next : String) : Bool :=
  if previous = "cpu" || next ≠ "cpu" then false else owner.deviceResourcesResident

/-- `deviceFallbackAction`. -/
def deviceFallbackAction (owner : InferEngine) (previous next : String) (reexecEnabled : Bool) :
    DeviceFallbackAction :=
  if !reexecEnabled then .reloadInPlace
  else if owner.requiresProcessRestartForCpuOnly previous next then .reexecAsCpu
  else .reloadInPlace

end InferEngine

/-- Does a load with this setting bring the engine up? -/
def LoadOutcome.succeeds (o : LoadOutcome) (forceCpu : Bool) : Bool :=
  (!forceCpu && o.offloaded || o.plain) && o.context

/-- Does the engine offload after a load with this setting? -/
def LoadOutcome.offloads (o : LoadOutcome) (forceCpu : Bool) : Bool := !forceCpu && o.offloaded

namespace InferEngine

variable (e : InferEngine) (o : LoadOutcome)

/-- The calls of `llama_model_load_from_file` in a load: the second one is the retry. -/
def asks (forceCpu : Bool) : List ℤ :=
  if forceCpu then [0] else if o.offloaded then [e.gpuLayers] else [e.gpuLayers, 0]

/-- What a load makes of an engine that has the GPU unless it is forced onto the cpu. -/
theorem loadModel_eq (h : e.forceCpu = false → e.gpuOk = true) : e.loadModel o =
    (o.succeeds e.forceCpu,
      { e with
        gpuOk := o.offloads e.forceCpu
        deviceInitialized := e.deviceInitialized || !e.forceCpu
        loaded := o.succeeds e.forceCpu || e.loaded
        layersAsked := e.layersAsked ++ e.asks o e.forceCpu }) := by
  obtain ⟨offloaded, plain, context⟩ := o
  cases hforce : e.forceCpu with
  | true =>
      cases plain <;> cases context <;>
        simp [loadModel, ask, asks, LoadOutcome.succeeds, LoadOutcome.offloads, hforce]
  | false =>
      have hgpu : e.gpuOk = true := h hforce
      cases offloaded <;> cases plain <;> cases context <;>
        simp [loadModel, ask, asks, LoadOutcome.succeeds, LoadOutcome.offloads, hforce, hgpu]

/-- A reload does what a load does, whatever the engine was before. -/
theorem reloadOn_eq (forceCpu : Bool) : e.reloadOn forceCpu o =
    (o.succeeds forceCpu,
      { e with
        forceCpu := forceCpu
        gpuOk := o.offloads forceCpu
        deviceInitialized := e.deviceInitialized || !forceCpu
        loaded := o.succeeds forceCpu
        layersAsked := e.layersAsked ++ e.asks o forceCpu }) := by
  rw [reloadOn, loadModel_eq]
  · simp [asks]
  · intro hforce
    exact congrArg not hforce

end InferEngine

end ServeInfer.InferenceWorker
