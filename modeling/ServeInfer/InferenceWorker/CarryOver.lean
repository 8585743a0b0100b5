import ServeInfer.InferenceWorker.EngineCalls

/-!
# Nothing is carried over

The memory of the context is empty whenever a request begins. Two engines that were asked
for other prompts, and were answered otherwise, cannot be told apart by the next request.
-/

namespace ServeInfer.InferenceWorker

open Device (Environ)

namespace ServingEngine

variable {σ : Type} {lib : Llama σ} {environ : Environ} {e e' e₁ e₂ : ServingEngine}
  {calls calls' : List (EngineCall σ)} {c c' : EngineCall σ}

/-- A request does not look at the fault of the one before it. -/
theorem request_clearFault (tier : String) (stream : Bool) (prompt : String) (w : σ) :
    e.clearFault.request lib environ tier stream prompt w =
      e.request lib environ tier stream prompt w := by
  cases stream <;> rfl

theorem settled_clearFault (tier : String) :
    (e.clearFault.setExecutingTier tier).settled environ =
      (e.setExecutingTier tier).settled environ := rfl

theorem reloadOn_clearFault (forceCpu : Bool) (o : LoadOutcome) :
    (e.clearFault.reloadOn forceCpu o).2 = (e.reloadOn forceCpu o).2 := rfl

/-- Two calls that are the same but for the prompt lead to engines that are the same but for the
fault. -/
theorem clearFault_call (hfresh : e.Fresh) (hfresh' : e'.Fresh)
    (heq : e.clearFault = e'.clearFault) (hsame : c.SameButPrompt c')
    (h : e.call lib environ c = some e₁) (h' : e'.call lib environ c' = some e₂) :
    e₁.clearFault = e₂.clearFault := by
  cases hsame with
  | request tier stream prompt prompt' w w' =>
      calc e₁.clearFault
          = (e.setExecutingTier tier).settled environ := settled_of_request hfresh h
        _ = (e.clearFault.setExecutingTier tier).settled environ := settled_clearFault tier
        _ = (e'.clearFault.setExecutingTier tier).settled environ := by rw [heq]
        _ = (e'.setExecutingTier tier).settled environ := settled_clearFault tier
        _ = e₂.clearFault := (settled_of_request hfresh' h').symm
  | reloadOn forceCpu o =>
      obtain rfl := Option.some.inj h
      obtain rfl := Option.some.inj h'
      rw [← reloadOn_clearFault, heq, reloadOn_clearFault]

/-- The same of whole runs, by induction on the calls. -/
theorem clearFault_exec (hfresh : e.Fresh) (hfresh' : e'.Fresh)
    (heq : e.clearFault = e'.clearFault)
    (hsame : List.Forall₂ EngineCall.SameButPrompt calls calls')
    (h : Machine.exec (call lib environ) e calls = some e₁)
    (h' : Machine.exec (call lib environ) e' calls' = some e₂) :
    e₁.clearFault = e₂.clearFault := by
  induction hsame generalizing e e' with
  | nil =>
      obtain rfl := Option.some.inj h
      obtain rfl := Option.some.inj h'
      exact heq
  | cons hfirst hrest ih =>
      rw [Machine.exec_cons, Option.bind_eq_some_iff] at h h'
      obtain ⟨e₃, hcall, hexec⟩ := h
      obtain ⟨e₄, hcall', hexec'⟩ := h'
      exact ih (hfresh.call hcall) (hfresh'.call hcall')
        (clearFault_call hfresh hfresh' heq hfirst hcall hcall') hexec hexec'

/-- However an engine has come to the next request, the memory of its context is empty, and the
request is answered as after any other prompts. -/
theorem no_carry_over {modelPath : String} {o : LoadOutcome}
    (hinit : e.init modelPath o = (true, e'))
    (h : Machine.exec (call lib environ) e' calls = some e₁)
    (h' : Machine.exec (call lib environ) e' calls' = some e₂)
    (hsame : List.Forall₂ EngineCall.SameButPrompt calls calls') :
    (∀ ctx, e₁.ctx = some ctx → ctx.memory = []) ∧
      ∀ tier stream prompt w, e₁.request lib environ tier stream prompt w =
        e₂.request lib environ tier stream prompt w := by
  have hfresh : e'.Fresh := fresh_init hinit
  constructor
  · intro ctx hctx
    rw [fresh_of_exec hfresh h ctx hctx]
    rfl
  · intro tier stream prompt w
    have heq := clearFault_exec hfresh hfresh rfl hsame h h'
    rw [← request_clearFault, heq, request_clearFault]

end ServingEngine

/-- A library whose every computation fails, with one token for a prompt. -/
def failing : Llama Unit where
  count _ _ := -1
  fill _ _ _ := (1, fun _ => 7)
  valid _ _ _ := true
  status _ _ _ := -3
  processed _ _ _ := 1
  after _ _ _ := ()
  sample _ _ := (1, ())
  isEog _ := false
  piece _ := "x"

/-- An engine on the cpu, before its model is loaded. -/
def unloadedEngine : ServingEngine where
  gpuLayers := 0
  forceCpu := true

/-- A load that succeeds without the GPU. -/
def plainLoad : LoadOutcome := ⟨false, true, true⟩

/-- A request that failed, and one for another prompt in its place. -/
theorem no_carry_over_failed :
    ∃ e' e₁ e₂, unloadedEngine.init "model" plainLoad = (true, e') ∧
      Machine.exec (ServingEngine.call failing fun _ => none) e'
        [.request "cpu" false "secret" (), .reloadOn true plainLoad] = some e₁ ∧
      Machine.exec (ServingEngine.call failing fun _ => none) e'
        [.request "cpu" false "other" (), .reloadOn true plainLoad] = some e₂ ∧
      (∀ ctx, e₁.ctx = some ctx → ctx.memory = []) ∧
      ∀ tier stream prompt w, e₁.request failing (fun _ => none) tier stream prompt w =
        e₂.request failing (fun _ => none) tier stream prompt w := by
  obtain ⟨e', hinit⟩ : ∃ e', unloadedEngine.init "model" plainLoad = (true, e') :=
    ⟨_, Prod.ext (by decide) rfl⟩
  obtain rfl : (unloadedEngine.init "model" plainLoad).2 = e' := congrArg Prod.snd hinit
  obtain ⟨e₁, h⟩ := Option.isSome_iff_exists.mp (by decide :
    (Machine.exec (ServingEngine.call failing fun _ => none)
      (unloadedEngine.init "model" plainLoad).2
      [.request "cpu" false "secret" (), .reloadOn true plainLoad]).isSome = true)
  obtain ⟨e₂, h'⟩ := Option.isSome_iff_exists.mp (by decide :
    (Machine.exec (ServingEngine.call failing fun _ => none)
      (unloadedEngine.init "model" plainLoad).2
      [.request "cpu" false "other" (), .reloadOn true plainLoad]).isSome = true)
  refine ⟨_, e₁, e₂, hinit, h, h', ?_⟩
  apply ServingEngine.no_carry_over hinit h h'
  exact .cons (.request _ _ _ _ _ _) (.cons (.reloadOn _ _) .nil)

end ServeInfer.InferenceWorker
