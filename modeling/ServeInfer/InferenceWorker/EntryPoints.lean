import ServeInfer.InferenceWorker.RequestCourse

/-!
# The two entry points

`generate` records a fault where the prompt is not decoded and where the model says
nothing. `generateStreaming` records neither; everywhere else the two agree.
-/

namespace ServeInfer.InferenceWorker

open Device (DeviceFault EngineRun Environ)

variable {σ : Type}

/-- The same fault is recorded, and without one the text is what the pieces come to. -/
structure EntryPointsAgree (generated streamed : Answered) : Prop where
  fault : generated.run?.map EngineRun.fault = streamed.run?.map EngineRun.fault
  text : ∀ run run', generated.run? = some run → streamed.run? = some run' → run.fault = .none →
    run.text = String.join run'.tokens

/-- The model has something to say: the loop takes a token that has a piece. -/
def Speaks (lib : Llama σ) (maxTokens : ℤ) (s : Session σ) : Prop :=
  ∃ skipped taken, s.Takes lib maxTokens skipped taken ∧
    lib.piece ((s.after lib skipped taken).token lib) ≠ ""

/-- The prompt is tokenized, and either the library does not decode it or it says nothing behind
it. -/
def Unanswered (lib : Llama σ) (environ : Environ) (e : ServingEngine) (prompt : String) (w : σ) :
    Prop :=
  ∃ ctx, e.ctx = some ctx ∧ promptTokens lib environ prompt w ≠ [] ∧
    ((∃ rc, (promptDecode lib environ ctx prompt w).1 = some rc ∧ rc ≠ 0) ∨
      (promptDecode lib environ ctx prompt w).1 = some 0 ∧
        ¬ Speaks lib e.maxTokens (promptDecode lib environ ctx prompt w).2)

namespace ServingEngine

variable {lib : Llama σ} {environ : Environ} {e : ServingEngine} {prompt : String} {w : σ}
  {ctx : Context} {s : Session σ}

theorem speaks_iff (hdecode : promptDecode lib environ ctx prompt w = (some 0, s)) :
    Speaks lib e.maxTokens s ↔ (lib.runDecodeLoop e.maxTokens s).pieces ≠ [] :=
  (Session.pieces_runDecodeLoop_iff (pieces_promptDecode hdecode)).symm

/-- One of the two records that the computation failed, and the other records nothing. -/
theorem not_agree_of_unrecorded {g t : Answered} {run run' : EngineRun} (hg : g.run? = some run)
    (ht : t.run? = some run') (hfault : run.fault = .runtimeError) (hnone : run'.fault = .none) :
    ¬ EntryPointsAgree g t := by
  intro h
  have hsame := h.fault
  rw [hg, ht, Option.map_some, Option.map_some, hfault, hnone] at hsame
  cases hsame

/-- The entry points agree on a request exactly when a simulated fault meets it, or the prompt is
not tokenized, or it is decoded and the model has something to say, or the process does not come
back from it. -/
theorem entry_points_agree_iff (lib : Llama σ) (environ : Environ) (e : ServingEngine)
    (prompt : String) (w : σ) :
    EntryPointsAgree (e.generate lib environ prompt w) (e.generateStreaming lib environ prompt w) ↔
      e.injects environ = true ∨ ¬ Unanswered lib environ e prompt w := by
  have hcourse := e.course lib environ prompt w
  generalize e.generate lib environ prompt w = g at hcourse
  generalize e.generateStreaming lib environ prompt w = t at hcourse
  cases hcourse with
  | simulated h =>
      refine iff_of_true ⟨rfl, ?_⟩ (.inl h)
      intro run run' hrun _ hnone
      obtain rfl := Option.some.inj hrun
      rw [injects, Bool.and_eq_true, decide_eq_true_eq] at h
      exact absurd hnone h.2
  | unloaded h hctx =>
      refine iff_of_true ⟨rfl, fun run run' hrun => by cases hrun⟩ (.inr ?_)
      rintro ⟨ctx, hsome, -⟩
      rw [hctx] at hsome
      cases hsome
  | untokenized h hctx htokens =>
      refine iff_of_true ⟨rfl, ?_⟩ (.inr ?_)
      · intro run run' hrun hrun' _
        obtain rfl := Option.some.inj hrun
        obtain rfl := Option.some.inj hrun'
        rfl
      · rintro ⟨ctx, -, hne, -⟩
        exact hne htokens
  | @aborted ctx s h hctx htokens hdecode =>
      refine iff_of_true ⟨rfl, fun run run' hrun => by cases hrun⟩ (.inr ?_)
      rintro ⟨ctx', hsome, -, hstatus⟩
      obtain rfl : ctx = ctx' := Option.some.inj (hctx.symm.trans hsome)
      rw [hdecode] at hstatus
      obtain ⟨rc, hrc, -⟩ | ⟨hrc, -⟩ := hstatus
      · cases hrc
      · cases hrc
  | @failed ctx rc s h hctx htokens hdecode hrc =>
      refine iff_of_false (not_agree_of_unrecorded rfl rfl rfl rfl) ?_
      rw [h, not_or, not_not]
      refine ⟨Bool.false_ne_true, ctx, hctx, htokens, .inl ⟨rc, ?_, hrc⟩⟩
      rw [hdecode]
  | @empty ctx s h hctx htokens hdecode hpieces =>
      refine iff_of_false (not_agree_of_unrecorded rfl rfl rfl rfl) ?_
      rw [h, not_or, not_not]
      refine ⟨Bool.false_ne_true, ctx, hctx, htokens, .inr ?_⟩
      rw [hdecode, speaks_iff hdecode, not_not]
      exact ⟨rfl, hpieces⟩
  | @answered ctx s h hctx htokens hdecode hpieces =>
      refine iff_of_true ⟨rfl, ?_⟩ (.inr ?_)
      · intro run run' hrun hrun' _
        obtain rfl := Option.some.inj hrun
        obtain rfl := Option.some.inj hrun'
        rfl
      · rintro ⟨ctx', hsome, -, hstatus⟩
        obtain rfl : ctx = ctx' := Option.some.inj (hctx.symm.trans hsome)
        rw [hdecode] at hstatus
        obtain ⟨rc, hrc, hne⟩ | ⟨-, hsilent⟩ := hstatus
        · exact hne (Option.some.inj hrc).symm
        · exact hsilent ((speaks_iff hdecode).mpr hpieces)

end ServingEngine

/-- A library that has one token for every prompt and answers the prompt with a status. -/
def oneToken (status : ℤ) (eog : Bool) : Llama Unit where
  count _ _ := -1
  fill _ _ _ := (1, fun _ => 7)
  valid _ _ _ := true
  status _ _ _ := status
  processed _ _ _ := 0
  after _ _ _ := ()
  sample _ _ := (1, ())
  isEog _ := eog
  piece _ := "x"

/-- An engine that has loaded its model. -/
def readyEngine : ServingEngine where
  gpuLayers := 99
  forceCpu := false
  loaded := true
  ctx := some loadedContext

/-- The computation of the prompt fails: `generate` records it, `generateStreaming` does not. -/
theorem not_entry_points_agree :
    ¬ EntryPointsAgree (readyEngine.generate (oneToken (-3) false) (fun _ => none) "hi" ())
      (readyEngine.generateStreaming (oneToken (-3) false) (fun _ => none) "hi" ()) := by
  intro h
  have hfault := h.fault
  revert hfault
  decide

end ServeInfer.InferenceWorker
