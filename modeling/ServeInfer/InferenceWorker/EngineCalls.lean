import ServeInfer.InferenceWorker.RequestCourse
import ServeInfer.Lib.Machine

/-!
# The engine from request to request

A prompt fits into one micro-batch, so one that fails leaves nothing in the memory; a prompt
that does not fail is cleared away behind the loop. Between requests an engine that has a
model therefore has the context of a new one.
-/

namespace ServeInfer.InferenceWorker

open Device (DeviceFault Environ)

variable {σ : Type}

/-- A call on the engine; a request brings what the library will answer. -/
inductive EngineCall (σ : Type)
  | request (tier : String) (stream : Bool) (prompt : String) (w : σ)
  | reloadOn (forceCpu : Bool) (o : LoadOutcome)

/-- The two calls are the same but for the prompt and what the library answers. -/
inductive EngineCall.SameButPrompt : EngineCall σ → EngineCall σ → Prop
  | request (tier : String) (stream : Bool) (prompt prompt' : String) (w w' : σ) :
      SameButPrompt (.request tier stream prompt w) (.request tier stream prompt' w')
  | reloadOn (forceCpu : Bool) (o : LoadOutcome) :
      SameButPrompt (.reloadOn forceCpu o) (.reloadOn forceCpu o)

namespace ServingEngine

/-- The engine after a call, if the process is still there. -/
def call (lib : Llama σ) (environ : Environ) (e : ServingEngine) :
    EngineCall σ → Option ServingEngine
  | .request tier stream prompt w => (e.request lib environ tier stream prompt w).engine
  | .reloadOn forceCpu o => some (e.reloadOn forceCpu o).2

/-- The context is as it was made. -/
def Fresh (e : ServingEngine) : Prop := ∀ ctx, e.ctx = some ctx → ctx = loadedContext

/-- What a request makes of the engine, the fault and the context apart. -/
def settled (environ : Environ) (e : ServingEngine) : ServingEngine :=
  if e.injects environ then { e.clearFault with faultInjected := true } else e.clearFault

end ServingEngine

namespace Session

variable {lib : Llama σ} {s : Session σ} {maxTokens : ℤ} {left generated : ℕ} {rc : ℤ}
  {batch : List Token}

/-- A decode changes nothing of the context but its memory. -/
theorem clear_decode (batch : List Token) :
    (s.decode lib batch).2.clear.ctx = s.clear.ctx := by
  unfold decode
  split
  · rfl
  · split <;> rfl

theorem clear_take : (s.take lib).2.clear.ctx = s.clear.ctx := by
  rw [take, clear_decode]
  unfold emit
  split <;> rfl

/-- The loop leaves the context that it has found, with nothing in its memory. -/
theorem ctx_runDecodeLoop (lib : Llama σ) (maxTokens : ℤ) (s : Session σ) :
    (lib.runDecodeLoop maxTokens s).ctx = s.clear.ctx := by
  have hloop : ∀ left generated, ∀ s : Session σ,
      (lib.decodeLoop maxTokens left generated s).clear.ctx = s.clear.ctx := by
    intro left
    induction left with
    | zero => exact fun _ _ => rfl
    | succ left ih =>
        intro generated s
        by_cases hroom : (generated : ℤ) < maxTokens
        · cases hends : s.ends lib with
          | true =>
              cases generated with
              | zero =>
                  rw [decodeLoop_skips hroom hends, ih]
                  rfl
              | succ generated =>
                  rw [decodeLoop_ends hroom hends (Nat.zero_lt_succ generated)]
                  rfl
          | false =>
              by_cases hstatus : s.status lib = some 0
              · rw [decodeLoop_takes hroom hends hstatus, ih, clear_take]
              · rw [decodeLoop_breaks hroom hends hstatus, clear_take]
        · rw [decodeLoop_stays hroom]
  exact hloop _ _ s

/-- A batch of one micro-batch that is not decoded leaves the context as it was. -/
theorem ctx_decode_of_failed (hsizes : s.ctx.nBatch ≤ s.ctx.nUbatch)
    (h : (s.decode lib batch).1 = some rc) (hrc : rc ≠ 0) :
    (s.decode lib batch).2.ctx = s.ctx := by
  unfold decode at h ⊢
  split
  · rfl
  · rename_i hvalid
    rw [if_neg hvalid] at h
    split
    · rfl
    · rename_i hfits
      rw [if_neg hfits] at h
      dsimp only at h ⊢
      rw [Option.some.inj h, Context.kept, if_neg hrc]
      have hone : (batch.length - 1) / s.ctx.nUbatch = 0 := by
        apply Nat.div_eq_zero_iff.mpr
        rw [Bool.or_eq_true, not_or, List.isEmpty_iff] at hvalid
        have hpos := List.length_pos_iff.mpr hvalid.1
        omega
      rw [hone, Nat.min_zero, Nat.zero_mul, List.take_zero, List.append_nil, ite_self]

end Session

namespace ServingEngine

variable {lib : Llama σ} {environ : Environ} {e e' : ServingEngine} {tier prompt : String} {w : σ}
  {stream : Bool} {ctx : Context} {s : Session σ} {rc : ℤ}

theorem ctx_promptDecode_of_failed
    (hdecode : promptDecode lib environ loadedContext prompt w = (some rc, s)) (hrc : rc ≠ 0) :
    s.ctx = loadedContext := by
  have hsizes : loadedContext.nBatch ≤ loadedContext.nUbatch := by decide
  have hstatus : (promptDecode lib environ loadedContext prompt w).1 = some rc := by rw [hdecode]
  have hctx : (promptDecode lib environ loadedContext prompt w).2.ctx = loadedContext :=
    Session.ctx_decode_of_failed hsizes hstatus hrc
  rwa [hdecode] at hctx

theorem ctx_runDecodeLoop_of_decoded (maxTokens : ℤ)
    (hdecode : promptDecode lib environ loadedContext prompt w = (some rc, s)) :
    (lib.runDecodeLoop maxTokens s).ctx = loadedContext := by
  have hctx : (promptDecode lib environ loadedContext prompt w).2.clear.ctx = loadedContext :=
    Session.clear_decode _
  rw [Session.ctx_runDecodeLoop]
  rwa [hdecode] at hctx

/-- An engine that gets its own context back is the one it was, but for the fault. -/
theorem clearFault_of_kept (h : e.injects environ = false) (hctx : e.ctx = some loadedContext)
    (hs : s.ctx = loadedContext) (he' : e'.clearFault = e.clearFault.keep s) :
    e'.clearFault = e.settled environ := by
  rw [he', keep, hs, settled, h, if_neg Bool.false_ne_true, ← hctx]
  rfl

/-- A request by its course: nothing of it stays but the fault. -/
theorem settled_of_course {g t : Answered} (hfresh : e.Fresh)
    (hcourse : e.Course lib environ prompt w g t)
    (h : (if stream then t else g).engine = some e') : e'.clearFault = e.settled environ := by
  cases hcourse with
  | simulated hinjects =>
      have hengine : some (e.simulated environ) = some e' := by cases stream <;> exact h
      obtain rfl := Option.some.inj hengine
      rw [settled, if_pos hinjects]
      rfl
  | unloaded hinjects hctx => cases stream <;> cases h
  | untokenized hinjects hctx htokens =>
      have hengine : some e.clearFault = some e' := by cases stream <;> exact h
      obtain rfl := Option.some.inj hengine
      rw [settled, hinjects]
      rfl
  | aborted hinjects hctx htokens hdecode => cases stream <;> cases h
  | failed hinjects hctx htokens hdecode hrc =>
      obtain rfl := hfresh _ hctx
      have hs := ctx_promptDecode_of_failed hdecode hrc
      cases stream with
      | true => exact clearFault_of_kept hinjects hctx hs (Option.some.inj h ▸ rfl)
      | false => exact clearFault_of_kept hinjects hctx hs (Option.some.inj h ▸ rfl)
  | empty hinjects hctx htokens hdecode hpieces =>
      obtain rfl := hfresh _ hctx
      have hs := ctx_runDecodeLoop_of_decoded e.maxTokens hdecode
      cases stream with
      | true => exact clearFault_of_kept hinjects hctx hs (Option.some.inj h ▸ rfl)
      | false => exact clearFault_of_kept hinjects hctx hs (Option.some.inj h ▸ rfl)
  | answered hinjects hctx htokens hdecode hpieces =>
      obtain rfl := hfresh _ hctx
      have hs := ctx_runDecodeLoop_of_decoded e.maxTokens hdecode
      cases stream with
      | true => exact clearFault_of_kept hinjects hctx hs (Option.some.inj h ▸ rfl)
      | false => exact clearFault_of_kept hinjects hctx hs (Option.some.inj h ▸ rfl)

/-- What a request leaves does not depend on its prompt. -/
theorem settled_of_request (hfresh : e.Fresh)
    (h : (e.request lib environ tier stream prompt w).engine = some e') :
    e'.clearFault = (e.setExecutingTier tier).settled environ := by
  have hfresh' : (e.setExecutingTier tier).Fresh := hfresh
  exact settled_of_course hfresh' ((e.setExecutingTier tier).course lib environ prompt w) h

theorem fresh_of_clearFault (h : e'.clearFault.Fresh) : e'.Fresh := h

theorem fresh_settled (h : e.Fresh) : (e.settled environ).Fresh := by
  unfold settled
  split
  · exact h
  · exact h

theorem fresh_reloadOn (forceCpu : Bool) (o : LoadOutcome) : (e.reloadOn forceCpu o).2.Fresh := by
  intro ctx hctx
  obtain ⟨-, hsome⟩ := Option.ite_none_right_eq_some.mp hctx
  exact (Option.some.inj hsome).symm

/-- Every call leaves the engine with a new context, if with one. -/
theorem Fresh.call {c : EngineCall σ} (h : e.Fresh) (hcall : e.call lib environ c = some e') :
    e'.Fresh := by
  cases c with
  | request tier stream prompt w =>
      apply fresh_of_clearFault
      rw [settled_of_request h hcall]
      exact fresh_settled h
  | reloadOn forceCpu o =>
      obtain rfl := Option.some.inj hcall
      exact fresh_reloadOn forceCpu o

theorem fresh_init {modelPath : String} {o : LoadOutcome}
    (h : e.init modelPath o = (true, e')) : e'.Fresh := by
  obtain ⟨hloaded, rfl⟩ := Prod.mk.inj h
  intro ctx hctx
  dsimp only at hctx
  rw [hloaded, if_pos rfl] at hctx
  exact (Option.some.inj hctx).symm

theorem fresh_of_exec {calls : List (EngineCall σ)} (h : e.Fresh)
    (hexec : Machine.exec (call lib environ) e calls = some e') : e'.Fresh :=
  Machine.exec_invariant h (fun _ _ _ hfresh hcall => hfresh.call hcall) hexec

end ServingEngine

end ServeInfer.InferenceWorker
