import ServeInfer.Device.Adapters
import ServeInfer.InferenceWorker.Engine
import ServeInfer.InferenceWorker.Llama
import ServeInfer.Lib.CInt
import ServeInfer.Lib.Text

/-!
# A request to the engine

`generate` and `generateStreaming` in a build with llama: the simulated fault, the prompt's
template, the prompt's tokens and the loop that samples one token after the other. A
`std::string` is the string of its bytes.
-/

namespace ServeInfer.InferenceWorker

open Device (DeviceFault EngineRun Environ)

variable {σ : Type}

/-- `InferEngine` with what a request reads and writes; where there is a model there is a
context. -/
structure ServingEngine extends InferEngine where
  maxTokens : ℤ := 512
  lastFault : DeviceFault := .none
  lastFaultDetail : String := ""
  executingTier : String := ""
  faultInjected : Bool := false
  ctx : Option Context := none
  deriving DecidableEq, Repr

/-- What a request comes to: the text that `generate` returns, the calls of `onToken`, the batches
that were decoded, and the engine, unless the process is gone. -/
structure Answered where
  text : String := ""
  tokens : List String := []
  decodes : List (List Token × Option ℤ) := []
  engine : Option ServingEngine := none
  deriving DecidableEq, Repr

/-- `faultByName`. -/
def faultByName (name : List Char) : DeviceFault :=
  if name = "removed".toList then .removed
  else if name = "unsupported".toList then .unsupportedOp
  else if name = "runtime".toList then .runtimeError
  else .none

/-- `applyPromptTemplate`. -/
def applyPromptTemplate (environ : Environ) (prompt : String) : String :=
  let form := ((environ "EDGE_PROMPT_TEMPLATE").getD
    "<|user|>\n\x7bprompt\x7d<|end|>\n<|assistant|>\n").toList
  match Text.afterFirst "\x7bprompt\x7d".toList form with
  | none => prompt
  | some rest =>
      String.ofList (form.take (form.length - rest.length - 8) ++ prompt.toList ++ rest)

/-- `ctxSize`, which nothing sets. -/
def ctxSize : ℕ := 2048

/-- The context of `loadModel`. -/
def loadedContext : Context := Context.ofParams ctxSize 512 512

namespace ServingEngine

def clearFault (e : ServingEngine) : ServingEngine :=
  { e with
    lastFault := .none
    lastFaultDetail := "" }

def recordFault (e : ServingEngine) (fault : DeviceFault) (detail : String) : ServingEngine :=
  { e with
    lastFault := fault
    lastFaultDetail := detail }

def setExecutingTier (e : ServingEngine) (tier : String) : ServingEngine :=
  { e with executingTier := tier }

/-- `init`. -/
def init (e : ServingEngine) (modelPath : String) (o : LoadOutcome) : Bool × ServingEngine :=
  match e.toInferEngine.init modelPath o with
  | (loaded, engine) =>
      (loaded,
        { e with
          toInferEngine := engine
          ctx := if loaded then some loadedContext else e.ctx })

/-- `reloadOn`; the old context is freed first. -/
def reloadOn (e : ServingEngine) (forceCpu : Bool) (o : LoadOutcome) : Bool × ServingEngine :=
  match e.toInferEngine.reloadOn forceCpu o with
  | (loaded, engine) =>
      (loaded,
        { e.clearFault with
          toInferEngine := engine
          ctx := if loaded then some loadedContext else none })

/-- What `EDGE_SIMULATE_DEVICE_FAULT` asks of the engine's tier: what stands before a colon names
the tier. -/
def simulatedFault (environ : Environ) (tier : String) : DeviceFault :=
  let spec := ((environ "EDGE_SIMULATE_DEVICE_FAULT").getD "").toList
  match Text.afterFirst [':'] spec with
  | none => faultByName spec
  | some fault =>
      let target := spec.take (spec.length - fault.length - 1)
      if target.isEmpty || target ≠ tier.toList then .none else faultByName fault

/-- `injectedFault`; it fires at most once. -/
def injectedFault (environ : Environ) (e : ServingEngine) : DeviceFault × ServingEngine :=
  if e.faultInjected then (.none, e)
  else
    let fault := simulatedFault environ e.executingTier
    if fault ≠ .none then (fault, { e with faultInjected := true }) else (.none, e)

end ServingEngine

namespace Llama

variable (lib : Llama σ)

/-- `tokenize`: the count comes back negative, and the buffer is cut or filled up to what was
written. -/
def tokenize (w : σ) (text : String) : List Token :=
  let n := lib.count w text
  if 0 ≤ n then []
  else
    let size := (-n).toNat
    let (written, buffer) := lib.fill w text size
    if written ≤ 0 then []
    else (List.range written.toNat).map fun i => if i < size then buffer i else 0

/-- `cfg_.maxTokens * 4`; the product keeps its low bits. -/
def attemptLimit (maxTokens : ℤ) : ℕ := (CInt.toInt (maxTokens * 4)).toNat

/-- The loop of `runDecodeLoop`, by the attempts that are left. -/
def decodeLoop (maxTokens : ℤ) : ℕ → ℕ → Session σ → Session σ
  | 0, _, s => s
  | left + 1, generated, s =>
      if (generated : ℤ) < maxTokens then
        let token := s.token lib
        let s := s.sampled lib
        if lib.isEog token then
          if generated = 0 then decodeLoop maxTokens left generated s else s
        else
          match (s.emit (lib.piece token)).decode lib [token] with
          | (some 0, s) => decodeLoop maxTokens left (generated + 1) s
          | (_, s) => s
      else s

/-- `runDecodeLoop`. -/
def runDecodeLoop (maxTokens : ℤ) (s : Session σ) : Session σ :=
  (lib.decodeLoop maxTokens (attemptLimit maxTokens) 0 s).clear

end Llama

namespace ServingEngine

variable (lib : Llama σ) (environ : Environ)

/-- The engine keeps the context that the request has used. -/
def keep (e : ServingEngine) (s : Session σ) : ServingEngine := { e with ctx := some s.ctx }

/-- `generate`; without a model the tokenizer has nothing to read. -/
def generate (e : ServingEngine) (prompt : String) (w : σ) : Answered :=
  match e.clearFault.injectedFault environ with
  | (.none, e) =>
      match e.ctx with
      | none => {}
      | some ctx =>
          let tokens := lib.tokenize w (applyPromptTemplate environ prompt)
          if tokens.isEmpty then
            { text := "[error: prompt tokenize failed]", engine := some e }
          else
            match (⟨w, ctx, [], []⟩ : Session σ).decode lib tokens with
            | (none, s) => { decodes := s.decodes }
            | (some rc, s) =>
                if rc ≠ 0 then
                  { text := "[error: prompt eval failed]"
                    decodes := s.decodes
                    engine := some ((e.recordFault .runtimeError
                      ("llama_decode rc=" ++ toString rc)).keep s) }
                else
                  let s := lib.runDecodeLoop e.maxTokens s
                  let result := String.join s.pieces
                  if result.isEmpty then
                    { text := "[error: empty model output]"
                      decodes := s.decodes
                      engine := some ((e.recordFault .runtimeError "empty model output").keep s) }
                  else
                    { text := result, decodes := s.decodes, engine := some (e.keep s) }
  | (fault, e) =>
      { text := "[error: simulated device fault]"
        engine := some (e.recordFault fault "EDGE_SIMULATE_DEVICE_FAULT") }

/-- `generateStreaming`. -/
def generateStreaming (e : ServingEngine) (prompt : String) (w : σ) : Answered :=
  match e.clearFault.injectedFault environ with
  | (.none, e) =>
      match e.ctx with
      | none => {}
      | some ctx =>
          let tokens := lib.tokenize w (applyPromptTemplate environ prompt)
          if tokens.isEmpty then
            { tokens := ["[error: prompt tokenize failed]"], engine := some e }
          else
            match (⟨w, ctx, [], []⟩ : Session σ).decode lib tokens with
            | (none, s) => { decodes := s.decodes }
            | (some rc, s) =>
                if rc ≠ 0 then
                  { tokens := ["[error: prompt eval failed]"]
                    decodes := s.decodes
                    engine := some (e.keep s) }
                else
                  let s := lib.runDecodeLoop e.maxTokens s
                  { tokens := s.pieces, decodes := s.decodes, engine := some (e.keep s) }
  | (fault, e) => { engine := some (e.recordFault fault "EDGE_SIMULATE_DEVICE_FAULT") }

/-- The call that `runThroughEngine` makes for a tier. -/
def request (e : ServingEngine) (tier : String) (stream : Bool) (prompt : String) (w : σ) :
    Answered :=
  let e := e.setExecutingTier tier
  if stream then e.generateStreaming lib environ prompt w else e.generate lib environ prompt w

end ServingEngine

/-- What `runThroughEngine` reads of a request that has come back. -/
def Answered.run? (a : Answered) : Option EngineRun :=
  a.engine.map fun e =>
    { tokens := a.tokens
      text := a.text
      fault := e.lastFault
      detail := e.lastFaultDetail }

end ServeInfer.InferenceWorker
