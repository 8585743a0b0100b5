import ServeInfer.InferenceWorker.DecodeLoop

/-!
# The course of a request

`generate` and `generateStreaming` go the same way up to the prompt: a simulated fault, an
engine without a model, a prompt without tokens, a prompt that is not decoded, and a prompt
that is. What each of them makes of it stands side by side here.
-/

namespace ServeInfer.InferenceWorker

open Device (DeviceFault Environ)

variable {σ : Type}

/-- The tokens of a request's prompt. -/
def promptTokens (lib : Llama σ) (environ : Environ) (prompt : String) (w : σ) : List Token :=
  lib.tokenize w (applyPromptTemplate environ prompt)

/-- What `llama_decode` returns for the prompt, and the request from there on. -/
def promptDecode (lib : Llama σ) (environ : Environ) (ctx : Context) (prompt : String) (w : σ) :
    Option ℤ × Session σ :=
  (⟨w, ctx, [], []⟩ : Session σ).decode lib (promptTokens lib environ prompt w)

namespace ServingEngine

/-- The next request meets a simulated fault. -/
def injects (environ : Environ) (e : ServingEngine) : Bool :=
  !e.faultInjected && simulatedFault environ e.executingTier ≠ .none

/-- The engine that has met it. -/
def simulated (environ : Environ) (e : ServingEngine) : ServingEngine :=
  { e with
    faultInjected := true
    lastFault := simulatedFault environ e.executingTier
    lastFaultDetail := "EDGE_SIMULATE_DEVICE_FAULT" }

variable (lib : Llama σ) (environ : Environ) (e : ServingEngine) (prompt : String) (w : σ)

/-- The ways of a request, with what `generate` and what `generateStreaming` makes of each. -/
inductive Course : Answered → Answered → Prop
  | simulated (h : e.injects environ = true) :
      Course
        { text := "[error: simulated device fault]", engine := some (e.simulated environ) }
        { engine := some (e.simulated environ) }
  | unloaded (h : e.injects environ = false) (hctx : e.ctx = none) : Course {} {}
  | untokenized {ctx : Context} (h : e.injects environ = false) (hctx : e.ctx = some ctx)
      (htokens : promptTokens lib environ prompt w = []) :
      Course
        { text := "[error: prompt tokenize failed]", engine := some e.clearFault }
        { tokens := ["[error: prompt tokenize failed]"], engine := some e.clearFault }
  | aborted {ctx : Context} {s : Session σ} (h : e.injects environ = false)
      (hctx : e.ctx = some ctx) (htokens : promptTokens lib environ prompt w ≠ [])
      (hdecode : promptDecode lib environ ctx prompt w = (none, s)) :
      Course { decodes := s.decodes } { decodes := s.decodes }
  | failed {ctx : Context} {rc : ℤ} {s : Session σ} (h : e.injects environ = false)
      (hctx : e.ctx = some ctx) (htokens : promptTokens lib environ prompt w ≠ [])
      (hdecode : promptDecode lib environ ctx prompt w = (some rc, s)) (hrc : rc ≠ 0) :
      Course
        { text := "[error: prompt eval failed]"
          decodes := s.decodes
          engine := some ((e.clearFault.recordFault .runtimeError
            ("llama_decode rc=" ++ toString rc)).keep s) }
        { tokens := ["[error: prompt eval failed]"]
          decodes := s.decodes
          engine := some (e.clearFault.keep s) }
  | empty {ctx : Context} {s : Session σ} (h : e.injects environ = false)
      (hctx : e.ctx = some ctx) (htokens : promptTokens lib environ prompt w ≠ [])
      (hdecode : promptDecode lib environ ctx prompt w = (some 0, s))
      (hpieces : (lib.runDecodeLoop e.maxTokens s).pieces = []) :
      Course
        { text := "[error: empty model output]"
          decodes := (lib.runDecodeLoop e.maxTokens s).decodes
          engine := some ((e.clearFault.recordFault .runtimeError "empty model output").keep
            (lib.runDecodeLoop e.maxTokens s)) }
        { decodes := (lib.runDecodeLoop e.maxTokens s).decodes
          engine := some (e.clearFault.keep (lib.runDecodeLoop e.maxTokens s)) }
  | answered {ctx : Context} {s : Session σ} (h : e.injects environ = false)
      (hctx : e.ctx = some ctx) (htokens : promptTokens lib environ prompt w ≠ [])
      (hdecode : promptDecode lib environ ctx prompt w = (some 0, s))
      (hpieces : (lib.runDecodeLoop e.maxTokens s).pieces ≠ []) :
      Course
        { text := String.join (lib.runDecodeLoop e.maxTokens s).pieces
          decodes := (lib.runDecodeLoop e.maxTokens s).decodes
          engine := some (e.clearFault.keep (lib.runDecodeLoop e.maxTokens s)) }
        { tokens := (lib.runDecodeLoop e.maxTokens s).pieces
          decodes := (lib.runDecodeLoop e.maxTokens s).decodes
          engine := some (e.clearFault.keep (lib.runDecodeLoop e.maxTokens s)) }

variable {lib environ e prompt w}

theorem injectedFault_clean (h : e.injects environ = false) :
    e.clearFault.injectedFault environ = (.none, e.clearFault) := by
  unfold injects at h
  unfold injectedFault
  cases hinjected : e.faultInjected with
  | true => exact if_pos hinjected
  | false =>
      rw [hinjected, Bool.not_false, Bool.true_and, decide_eq_false_iff_not, not_not] at h
      rw [if_neg (by rw [clearFault, hinjected]; exact Bool.false_ne_true)]
      exact if_neg (not_not_intro h)

theorem injectedFault_simulated (h : e.injects environ = true) :
    simulatedFault environ e.executingTier ≠ .none ∧
      e.clearFault.injectedFault environ =
        (simulatedFault environ e.executingTier, { e.clearFault with faultInjected := true }) := by
  rw [injects, Bool.and_eq_true, Bool.not_eq_true', decide_eq_true_eq] at h
  refine ⟨h.2, ?_⟩
  unfold injectedFault
  rw [if_neg (by rw [clearFault, h.1]; exact Bool.false_ne_true)]
  exact if_pos h.2

/-- Pieces that have a character each are empty together only if there are none. -/
theorem join_isEmpty {pieces : List String} (h : ∀ piece ∈ pieces, piece ≠ "") :
    (String.join pieces).isEmpty = true ↔ pieces = [] := by
  cases pieces with
  | nil => simp
  | cons piece pieces =>
      have hpiece : piece ≠ "" := h piece List.mem_cons_self
      simp [String.join_cons, hpiece]

theorem pieces_promptDecode {ctx : Context} {rc : Option ℤ} {s : Session σ}
    (h : promptDecode lib environ ctx prompt w = (rc, s)) : s.pieces = [] := by
  have hpieces : (promptDecode lib environ ctx prompt w).2.pieces = [] := Session.pieces_decode _
  rwa [h] at hpieces

/-- A request goes one of these ways. -/
theorem course (lib : Llama σ) (environ : Environ) (e : ServingEngine) (prompt : String) (w : σ) :
    Course lib environ e prompt w (e.generate lib environ prompt w)
      (e.generateStreaming lib environ prompt w) := by
  unfold generate generateStreaming
  cases hinjects : e.injects environ with
  | true =>
      obtain ⟨hfault, heq⟩ := injectedFault_simulated hinjects
      have hcourse : Course lib environ e prompt w _ _ := .simulated hinjects
      rw [simulated] at hcourse
      rw [heq]
      generalize simulatedFault environ e.executingTier = fault at hfault hcourse
      cases fault with
      | none => exact absurd rfl hfault
      | unavailable => exact hcourse
      | removed => exact hcourse
      | unsupportedOp => exact hcourse
      | runtimeError => exact hcourse
  | false =>
      rw [injectedFault_clean hinjects]
      dsimp only
      have hsame : e.clearFault.ctx = e.ctx := rfl
      rw [hsame]
      cases hctx : e.ctx with
      | none => exact .unloaded hinjects hctx
      | some ctx =>
          dsimp only
          rw [← promptTokens]
          by_cases htokens : promptTokens lib environ prompt w = []
          · rw [if_pos (by simpa using htokens), if_pos (by simpa using htokens)]
            exact .untokenized hinjects hctx htokens
          · rw [if_neg (by simpa using htokens), if_neg (by simpa using htokens), ← promptDecode]
            cases hdecode : promptDecode lib environ ctx prompt w with
            | mk status s =>
            cases status with
            | none => exact .aborted hinjects hctx htokens hdecode
            | some rc =>
                dsimp only
                by_cases hrc : rc = 0
                · subst hrc
                  rw [if_neg (not_not_intro rfl), if_neg (not_not_intro rfl)]
                  have hnonempty :
                      (String.join (lib.runDecodeLoop e.maxTokens s).pieces).isEmpty = true ↔
                        (lib.runDecodeLoop e.maxTokens s).pieces = [] :=
                    join_isEmpty fun _ =>
                      Session.mem_pieces_runDecodeLoop (pieces_promptDecode hdecode)
                  have hmax : e.clearFault.maxTokens = e.maxTokens := rfl
                  rw [hmax]
                  by_cases hpieces : (lib.runDecodeLoop e.maxTokens s).pieces = []
                  · rw [if_pos (hnonempty.mpr hpieces), hpieces]
                    exact .empty hinjects hctx htokens hdecode hpieces
                  · rw [if_neg fun hempty => hpieces (hnonempty.mp hempty)]
                    exact .answered hinjects hctx htokens hdecode hpieces
                · rw [if_pos hrc, if_pos hrc]
                  exact .failed hinjects hctx htokens hdecode hrc

end ServingEngine

end ServeInfer.InferenceWorker
