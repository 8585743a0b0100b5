import ServeInfer.Device.RouterRuns
import ServeInfer.InferenceWorker.EntryPoints

/-!
# Fatal decodes

A decode that fails for good leaves a fault behind where it is the prompt's in `generate`,
and where nothing has been said yet. In the stream, and after the first piece, the loop
just ends: the tier is credited with an answer that was cut short.
-/

namespace ServeInfer.Device

namespace Router

variable {env : RouterEnv} {prompt : String} {onToken : Bool} {r : Router}

/-- The active tier is treated as failed, and the walk goes on with the next tier if there is one
and the hook brings it up. -/
structure FailsOver (env : RouterEnv) (prompt : String) (onToken : Bool) (r : Router) : Prop where
  failed : (r.attempt env prompt onToken).execution.ok = false
  next : ∀ n l r', r.ladder.reportFault env.toEnv (r.attempt env prompt onToken).execution.fault
      (r.attempt env prompt onToken).execution.detail = (true, l) →
    (((r.tried (r.attempt env prompt onToken)).settle l false).logState env).callHook env
      (r.attempt env prompt onToken).tier l.active = (true, r') →
    walk env prompt onToken (n + 1) r = walk env prompt onToken n r'

/-- The active tier's adapter has gone through the engine. -/
def RanEngine (env : RouterEnv) (prompt : String) (onToken : Bool) (run : EngineRun)
    (r : Router) : Prop :=
  r.ladder.active ∈ r.backends ∧
    env.execute r.executions r.ladder.active prompt onToken = runThroughEngine (some run) onToken

theorem failsOver_of_failed (h : (r.attempt env prompt onToken).execution.ok = false) :
    FailsOver env prompt onToken r := by
  refine ⟨h, ?_⟩
  intro n l r' hreport hhook
  rw [walk, if_neg (by rw [h]; exact Bool.false_ne_true), ladder_tried, hreport]
  dsimp only
  rw [hhook]

/-- A recorded fault is a failed tier. -/
theorem failsOver_of_fault {run : EngineRun} (h : RanEngine env prompt onToken run r)
    (hfault : run.fault ≠ .none) : FailsOver env prompt onToken r := by
  apply failsOver_of_failed
  have hexecution : (runThroughEngine (some run) onToken).2.fault = run.fault := by
    cases onToken <;> rfl
  have hok : (runThroughEngine (some run) onToken).2.ok = false := by
    rw [BackendExecution.ok, hexecution]
    exact decide_eq_false hfault
  unfold attempt
  dsimp only
  rw [if_pos h.1, h.2]
  dsimp only
  rw [outcome, hok, Bool.and_false, if_neg Bool.false_ne_true]
  exact hok

end Router

end ServeInfer.Device

namespace ServeInfer.InferenceWorker

open Device (DeviceFault EngineRun Environ RouterEnv Router)

variable {σ : Type}

/-- A fatal status of `llama_decode` that the request has met is recorded as a fault, and the router
treats the tier as failed. -/
def FatalRecorded (a : Answered) (prompt : String) (stream : Bool) : Prop :=
  ∀ batch rc, (batch, some rc) ∈ a.decodes → Fatal rc →
    ∃ run, a.run? = some run ∧ run.fault ≠ .none ∧
      ∀ (env : RouterEnv) (r : Router), Router.RanEngine env prompt stream run r →
        Router.FailsOver env prompt stream r

/-- A fatal status that nothing is made of: the prompt's in the stream, or one in the loop, in the
stream or behind a piece. -/
def Swallowed (lib : Llama σ) (environ : Environ) (e : ServingEngine) (stream : Bool)
    (prompt : String) (w : σ) : Prop :=
  ∃ ctx, e.ctx = some ctx ∧ promptTokens lib environ prompt w ≠ [] ∧
    ((stream = true ∧ ∃ rc, (promptDecode lib environ ctx prompt w).1 = some rc ∧ Fatal rc) ∨
      (promptDecode lib environ ctx prompt w).1 = some 0 ∧
        ∃ skipped taken, (promptDecode lib environ ctx prompt w).2.Takes lib e.maxTokens skipped
            taken ∧
          (∃ rc, ((promptDecode lib environ ctx prompt w).2.after lib skipped taken).status lib =
            some rc ∧ Fatal rc) ∧
          (stream = true ∨ ∃ j ≤ taken, lib.piece
            (((promptDecode lib environ ctx prompt w).2.after lib skipped j).token lib) ≠ ""))

theorem not_fatal_zero : ¬ Fatal 0 := by decide

variable {lib : Llama σ} {environ : Environ} {e : ServingEngine} {prompt : String} {w : σ}
  {ctx : Context} {s : Session σ} {a : Answered} {stream : Bool} {run : EngineRun}

theorem fatalRecorded_of_fault (hrun : a.run? = some run) (hfault : run.fault ≠ .none) :
    FatalRecorded a prompt stream :=
  fun _ _ _ _ => ⟨run, hrun, hfault, fun _ _ hran => Router.failsOver_of_fault hran hfault⟩

/-- Without a fault every status has to be harmless. -/
theorem fatalRecorded_iff_of_none (hrun : a.run? = some run) (hfault : run.fault = .none) :
    FatalRecorded a prompt stream ↔ ∀ batch rc, (batch, some rc) ∈ a.decodes → ¬ Fatal rc := by
  constructor
  · intro h batch rc hmem hfatal
    obtain ⟨run', hrun', hne, -⟩ := h batch rc hmem hfatal
    obtain rfl : run = run' := Option.some.inj (hrun.symm.trans hrun')
    exact hne hfault
  · exact fun h batch rc hmem hfatal => absurd hfatal (h batch rc hmem)

/-- What the prompt's decode has written down. -/
theorem decodes_promptDecode (lib : Llama σ) (environ : Environ) (ctx : Context) (prompt : String)
    (w : σ) :
    (promptDecode lib environ ctx prompt w).2.decodes =
      [(promptTokens lib environ prompt w, (promptDecode lib environ ctx prompt w).1)] :=
  Session.decodes_decode _

/-- The fatal statuses of a request whose prompt was decoded are those of the loop. -/
theorem exists_fatal_iff (hdecode : promptDecode lib environ ctx prompt w = (some 0, s)) :
    (∃ batch rc, (batch, some rc) ∈ (lib.runDecodeLoop e.maxTokens s).decodes ∧ Fatal rc) ↔
      ∃ skipped taken, s.Takes lib e.maxTokens skipped taken ∧
        ∃ rc, (s.after lib skipped taken).status lib = some rc ∧ Fatal rc := by
  have hdecodes := decodes_promptDecode lib environ ctx prompt w
  rw [hdecode] at hdecodes
  constructor
  · rintro ⟨batch, rc, hmem, hfatal⟩
    rw [Session.mem_decodes_runDecodeLoop, hdecodes, List.mem_singleton, Prod.mk.injEq] at hmem
    obtain ⟨-, hrc⟩ | ⟨skipped, taken, htakes, -, hstatus⟩ := hmem
    · obtain rfl := Option.some.inj hrc
      exact absurd hfatal not_fatal_zero
    · exact ⟨skipped, taken, htakes, rc, hstatus, hfatal⟩
  · rintro ⟨skipped, taken, htakes, rc, hstatus, hfatal⟩
    exact ⟨_, rc, Session.mem_decodes_runDecodeLoop.mpr
      (.inr ⟨skipped, taken, htakes, rfl, hstatus⟩), hfatal⟩

/-- Nothing is taken behind a fatal status, so the pieces come before it. -/
theorem speaks_iff_of_fatal {maxTokens : ℤ} {skipped taken : ℕ}
    (htakes : s.Takes lib maxTokens skipped taken) {rc : ℤ}
    (hstatus : (s.after lib skipped taken).status lib = some rc) (hfatal : Fatal rc) :
    Speaks lib maxTokens s ↔ ∃ j ≤ taken, lib.piece ((s.after lib skipped j).token lib) ≠ "" := by
  constructor
  · rintro ⟨skipped', taken', htakes', hpiece⟩
    obtain ⟨skipped₀, all, hall, -⟩ := Session.decodeLoop_spec lib maxTokens s
    obtain ⟨rfl, -⟩ := (hall _ _).mp htakes
    obtain ⟨rfl, -⟩ := (hall _ _).mp htakes'
    refine ⟨taken', ?_, hpiece⟩
    by_contra hlt
    have hzero := htakes'.decodes taken (Nat.not_le.mp hlt)
    rw [hstatus] at hzero
    exact not_fatal_zero (Option.some.inj hzero ▸ hfatal)
  · rintro ⟨j, hle, hpiece⟩
    exact ⟨skipped, j, htakes.of_le hle, hpiece⟩

section Ways

theorem not_swallowed_of_unloaded (hctx : e.ctx = none) :
    ¬ Swallowed lib environ e stream prompt w := by
  rintro ⟨ctx, hsome, -⟩
  rw [hctx] at hsome
  cases hsome

theorem not_swallowed_of_untokenized (htokens : promptTokens lib environ prompt w = []) :
    ¬ Swallowed lib environ e stream prompt w := by
  rintro ⟨ctx, -, hne, -⟩
  exact hne htokens

variable {rc : ℤ} (hctx : e.ctx = some ctx) (htokens : promptTokens lib environ prompt w ≠ [])

include hctx

theorem not_swallowed_of_aborted (hdecode : promptDecode lib environ ctx prompt w = (none, s)) :
    ¬ Swallowed lib environ e stream prompt w := by
  rintro ⟨ctx', hsome, -, hfatal⟩
  obtain rfl : ctx = ctx' := Option.some.inj (hctx.symm.trans hsome)
  rw [hdecode] at hfatal
  obtain ⟨-, rc, hrc, -⟩ | ⟨hrc, -⟩ := hfatal
  · cases hrc
  · cases hrc

include htokens

/-- A prompt that is not decoded is swallowed in the stream if its status is fatal. -/
theorem swallowed_iff_of_failed (hdecode : promptDecode lib environ ctx prompt w = (some rc, s))
    (hrc : rc ≠ 0) : Swallowed lib environ e stream prompt w ↔ stream = true ∧ Fatal rc := by
  constructor
  · rintro ⟨ctx', hsome, -, hfatal⟩
    obtain rfl : ctx = ctx' := Option.some.inj (hctx.symm.trans hsome)
    rw [hdecode] at hfatal
    obtain ⟨hstream, rc', hrc', hfatal⟩ | ⟨hzero, -⟩ := hfatal
    · exact ⟨hstream, Option.some.inj hrc' ▸ hfatal⟩
    · exact absurd (Option.some.inj hzero) hrc
  · rintro ⟨hstream, hfatal⟩
    refine ⟨ctx, hctx, htokens, .inl ⟨hstream, rc, ?_, hfatal⟩⟩
    rw [hdecode]

/-- Behind a prompt that is decoded, a fatal status is swallowed in the stream, and where the model
has said something. -/
theorem swallowed_iff_of_decoded (hdecode : promptDecode lib environ ctx prompt w = (some 0, s)) :
    Swallowed lib environ e stream prompt w ↔
      (∃ batch rc, (batch, some rc) ∈ (lib.runDecodeLoop e.maxTokens s).decodes ∧ Fatal rc) ∧
        (stream = true ∨ Speaks lib e.maxTokens s) := by
  rw [exists_fatal_iff hdecode]
  constructor
  · rintro ⟨ctx', hsome, -, hfatal⟩
    obtain rfl : ctx = ctx' := Option.some.inj (hctx.symm.trans hsome)
    rw [hdecode] at hfatal
    obtain ⟨-, rc, hrc, hfatal⟩ | ⟨-, skipped, taken, htakes, ⟨rc, hstatus, hfatal⟩, hor⟩ := hfatal
    · exact absurd (Option.some.inj hrc ▸ hfatal) not_fatal_zero
    · exact ⟨⟨skipped, taken, htakes, rc, hstatus, hfatal⟩,
        hor.imp_right (speaks_iff_of_fatal htakes hstatus hfatal).mpr⟩
  · rintro ⟨⟨skipped, taken, htakes, rc, hstatus, hfatal⟩, hor⟩
    refine ⟨ctx, hctx, htokens, .inr ?_⟩
    rw [hdecode]
    exact ⟨rfl, skipped, taken, htakes, ⟨rc, hstatus, hfatal⟩,
      hor.imp_right (speaks_iff_of_fatal htakes hstatus hfatal).mp⟩

end Ways

/-- What has no decodes has nothing to record. -/
theorem fatalRecorded_of_nil (h : a.decodes = []) : FatalRecorded a prompt stream := by
  intro batch rc hmem
  rw [h] at hmem
  cases hmem

/-- The prompt is the only batch, and its decode did not come back. -/
theorem fatalRecorded_of_aborted (hdecode : promptDecode lib environ ctx prompt w = (none, s))
    (ha : a.decodes = s.decodes) : FatalRecorded a prompt stream := by
  have hdecodes := decodes_promptDecode lib environ ctx prompt w
  rw [hdecode] at hdecodes
  intro batch rc hmem
  rw [ha, hdecodes, List.mem_singleton, Prod.mk.injEq] at hmem
  cases hmem.2

/-- A request without a fault behind a decoded prompt. -/
theorem fatalRecorded_iff_of_decoded (h : e.injects environ = false) (hctx : e.ctx = some ctx)
    (htokens : promptTokens lib environ prompt w ≠ [])
    (hdecode : promptDecode lib environ ctx prompt w = (some 0, s))
    (hsaid : stream = true ∨ Speaks lib e.maxTokens s)
    (hdecodes : a.decodes = (lib.runDecodeLoop e.maxTokens s).decodes)
    (hengine : a.engine = some (e.clearFault.keep (lib.runDecodeLoop e.maxTokens s))) :
    FatalRecorded a prompt stream ↔
      e.injects environ = true ∨ ¬ Swallowed lib environ e stream prompt w := by
  rw [fatalRecorded_iff_of_none (by rw [Answered.run?, hengine]; rfl) rfl, h, hdecodes,
    swallowed_iff_of_decoded hctx htokens hdecode, or_iff_right Bool.false_ne_true,
    and_iff_left hsaid]
  push Not
  rfl

/-- The same of a request by its course. -/
theorem fatalRecorded_iff_of_course {g t : Answered}
    (hcourse : e.Course lib environ prompt w g t) (stream : Bool) :
    FatalRecorded (if stream then t else g) prompt stream ↔
      e.injects environ = true ∨ ¬ Swallowed lib environ e stream prompt w := by
  cases hcourse with
  | simulated h =>
      refine iff_of_true (fatalRecorded_of_nil ?_) (.inl h)
      cases stream <;> rfl
  | unloaded h hctx =>
      refine iff_of_true (fatalRecorded_of_nil ?_) (.inr (not_swallowed_of_unloaded hctx))
      cases stream <;> rfl
  | untokenized h hctx htokens =>
      refine iff_of_true (fatalRecorded_of_nil ?_) (.inr (not_swallowed_of_untokenized htokens))
      cases stream <;> rfl
  | aborted h hctx htokens hdecode =>
      refine iff_of_true (fatalRecorded_of_aborted hdecode ?_)
        (.inr (not_swallowed_of_aborted hctx hdecode))
      cases stream <;> rfl
  | @failed ctx rc s h hctx htokens hdecode hrc =>
      rw [h, or_iff_right Bool.false_ne_true, swallowed_iff_of_failed hctx htokens hdecode hrc]
      cases stream with
      | true =>
          have hdecodes := decodes_promptDecode lib environ ctx prompt w
          rw [hdecode] at hdecodes
          rw [if_pos rfl, fatalRecorded_iff_of_none rfl rfl, hdecodes]
          simp
      | false =>
          exact iff_of_true (fatalRecorded_of_fault rfl (by exact DeviceFault.noConfusion))
            fun hstream => Bool.false_ne_true hstream.1
  | @empty ctx s h hctx htokens hdecode hpieces =>
      cases stream with
      | true => exact fatalRecorded_iff_of_decoded h hctx htokens hdecode (.inl rfl) rfl rfl
      | false =>
          refine iff_of_true (fatalRecorded_of_fault rfl (by exact DeviceFault.noConfusion))
            (.inr ?_)
          rw [swallowed_iff_of_decoded hctx htokens hdecode, ServingEngine.speaks_iff hdecode]
          rintro ⟨-, hfalse | hspeaks⟩
          · exact Bool.false_ne_true hfalse
          · exact hspeaks hpieces
  | @answered ctx s h hctx htokens hdecode hpieces =>
      have hspeaks := (ServingEngine.speaks_iff hdecode).mpr hpieces
      cases stream with
      | true => exact fatalRecorded_iff_of_decoded h hctx htokens hdecode (.inl rfl) rfl rfl
      | false => exact fatalRecorded_iff_of_decoded h hctx htokens hdecode (.inr hspeaks) rfl rfl

/-- A fatal status is recorded, and the tier treated as failed, exactly where a simulated fault
comes first or the status is not swallowed. -/
theorem fatal_recorded_iff (lib : Llama σ) (environ : Environ) (e : ServingEngine) (tier : String)
    (stream : Bool) (prompt : String) (w : σ) :
    FatalRecorded (e.request lib environ tier stream prompt w) prompt stream ↔
      (e.setExecutingTier tier).injects environ = true ∨
        ¬ Swallowed lib environ e stream prompt w :=
  fatalRecorded_iff_of_course ((e.setExecutingTier tier).course lib environ prompt w) stream

/-- The computation of the prompt fails in the stream, and no fault is left behind. -/
theorem not_fatal_recorded :
    ¬ FatalRecorded (readyEngine.request (oneToken (-3) false) (fun _ => none) "cpu" true "hi" ())
      "hi" true := by
  intro h
  have hmem : ([7], some (-3)) ∈ (readyEngine.request (oneToken (-3) false) (fun _ => none) "cpu"
      true "hi" ()).decodes := by decide
  obtain ⟨run, hrun, hfault, -⟩ := h _ _ hmem (by decide)
  have hnone : (readyEngine.request (oneToken (-3) false) (fun _ => none) "cpu" true "hi"
      ()).run?.map EngineRun.fault = some .none := by decide
  rw [hrun] at hnone
  exact hfault (Option.some.inj hnone)

end ServeInfer.InferenceWorker
