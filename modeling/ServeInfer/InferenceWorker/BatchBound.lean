import ServeInfer.InferenceWorker.EngineCalls

/-!
# The batches that are decoded

Behind the prompt every batch is one token. The prompt goes to the library in one batch
however long it is, and nothing on the way there counts its tokens.
-/

namespace ServeInfer.InferenceWorker

open Device (Environ)

/-- Every batch has a token and no more than the context takes, and the library's assertion on it
holds. -/
def BatchesBounded (a : Answered) : Prop :=
  ∀ batch rc, (batch, rc) ∈ a.decodes → 1 ≤ batch.length ∧ batch.length ≤ 512 ∧ rc ≠ none

variable {σ : Type} {lib : Llama σ} {environ : Environ} {e e' : ServingEngine} {prompt : String}
  {w : σ} {s : Session σ} {g t : Answered} {calls : List (EngineCall σ)}

namespace Session

variable {batch : List Token}

/-- The assertion fails only on a batch that is too long. -/
theorem status_ne_none (h : batch.length ≤ s.ctx.nBatch) : (s.decode lib batch).1 ≠ none := by
  unfold decode
  split
  · exact Option.some_ne_none _
  · rw [if_neg (Nat.not_lt.mpr h)]
    exact Option.some_ne_none _

theorem nBatch_after (skipped taken : ℕ) :
    (s.after lib skipped taken).ctx.nBatch = s.ctx.nBatch := by
  induction taken with
  | zero =>
      induction skipped with
      | zero => rfl
      | succ skipped ih => rw [after_skip, ← ih, sampled]
  | succ taken ih =>
      have hctx : ((s.after lib skipped taken).take lib).2.clear.ctx =
          (s.after lib skipped taken).clear.ctx := clear_take
      have hsize := congrArg Context.nBatch hctx
      rw [after_take, ← ih]
      exact hsize

/-- A token that is taken fits. -/
theorem status_after_ne_none (h : 1 ≤ s.ctx.nBatch) (skipped taken : ℕ) :
    (s.after lib skipped taken).status lib ≠ none := by
  apply status_ne_none
  have hemit : ∀ (t : Session σ) (piece : String), (t.emit piece).ctx = t.ctx := by
    intro t piece
    unfold emit
    split <;> rfl
  rw [hemit, List.length_singleton]
  exact (nBatch_after skipped taken).symm ▸ h

end Session

variable {ctx : Context} {a : Answered} {rc : Option ℤ} {maxTokens : ℤ}

/-- A request whose only batch is its prompt. -/
theorem batchesBounded_iff_of_prompt (htokens : promptTokens lib environ prompt w ≠ [])
    (hdecode : promptDecode lib environ loadedContext prompt w = (rc, s))
    (ha : a.decodes = s.decodes) :
    BatchesBounded a ↔ (promptTokens lib environ prompt w).length ≤ 512 := by
  have hdecodes : (promptDecode lib environ loadedContext prompt w).2.decodes = _ :=
    Session.decodes_decode _
  have hstatus : (promptDecode lib environ loadedContext prompt w).1 = rc := by rw [hdecode]
  rw [← promptDecode, hdecode] at hdecodes
  have hpos := List.length_pos_iff.mpr htokens
  constructor
  · intro h
    exact (h _ rc (by rw [ha, hdecodes]; exact List.mem_singleton_self _)).2.1
  · intro hle batch rc' hmem
    rw [ha, hdecodes, List.nil_append, List.mem_singleton, Prod.mk.injEq] at hmem
    obtain ⟨rfl, rfl⟩ := hmem
    refine ⟨hpos, hle, ?_⟩
    rw [← hstatus]
    exact Session.status_ne_none hle

/-- A request whose prompt was decoded has the batches of the loop besides. -/
theorem batchesBounded_iff_of_decoded (htokens : promptTokens lib environ prompt w ≠ [])
    (hdecode : promptDecode lib environ loadedContext prompt w = (rc, s))
    (ha : a.decodes = (lib.runDecodeLoop maxTokens s).decodes) :
    BatchesBounded a ↔ (promptTokens lib environ prompt w).length ≤ 512 := by
  have hprompt : BatchesBounded { decodes := s.decodes } ↔ _ :=
    batchesBounded_iff_of_prompt htokens hdecode rfl
  have hctx : (promptDecode lib environ loadedContext prompt w).2.clear.ctx = loadedContext :=
    Session.clear_decode _
  rw [hdecode] at hctx
  have hroom : 1 ≤ s.ctx.nBatch := (congrArg Context.nBatch hctx).symm ▸ (by decide)
  rw [← hprompt]
  constructor
  · intro h batch rc' hmem
    apply h
    rw [ha, Session.mem_decodes_runDecodeLoop]
    exact .inl hmem
  · intro h batch rc' hmem
    rw [ha, Session.mem_decodes_runDecodeLoop] at hmem
    obtain hmem | ⟨skipped, taken, -, rfl, rfl⟩ := hmem
    · exact h batch rc' hmem
    · exact ⟨Nat.le_refl 1, by simp, Session.status_after_ne_none hroom skipped taken⟩

theorem batchesBounded_of_nil (h : a.decodes = []) : BatchesBounded a := by
  intro batch rc hmem
  rw [h] at hmem
  cases hmem

/-- A request by its course. -/
theorem batchesBounded_iff_of_course (hfresh : e.Fresh)
    (hcourse : e.Course lib environ prompt w g t) (stream : Bool) :
    BatchesBounded (if stream then t else g) ↔
      e.injects environ = true ∨ e.ctx = none ∨
        (promptTokens lib environ prompt w).length ≤ 512 := by
  have hiff : ∀ {P : Prop}, e.injects environ = false → e.ctx = some loadedContext →
      ((e.injects environ = true ∨ e.ctx = none ∨ P) ↔ P) := by
    intro P hinjects hctx
    rw [hinjects, hctx, or_iff_right Bool.false_ne_true, or_iff_right (Option.some_ne_none _)]
  cases hcourse with
  | simulated h =>
      refine iff_of_true (batchesBounded_of_nil ?_) (.inl h)
      cases stream <;> rfl
  | unloaded h hctx =>
      refine iff_of_true (batchesBounded_of_nil ?_) (.inr (.inl hctx))
      cases stream <;> rfl
  | untokenized h hctx htokens =>
      refine iff_of_true (batchesBounded_of_nil ?_) (.inr (.inr (by rw [htokens]; decide)))
      cases stream <;> rfl
  | aborted h hctx htokens hdecode =>
      obtain rfl := hfresh _ hctx
      rw [hiff h hctx]
      cases stream with
      | true => exact batchesBounded_iff_of_prompt htokens hdecode rfl
      | false => exact batchesBounded_iff_of_prompt htokens hdecode rfl
  | failed h hctx htokens hdecode hrc =>
      obtain rfl := hfresh _ hctx
      rw [hiff h hctx]
      cases stream with
      | true => exact batchesBounded_iff_of_prompt htokens hdecode rfl
      | false => exact batchesBounded_iff_of_prompt htokens hdecode rfl
  | empty h hctx htokens hdecode hpieces =>
      obtain rfl := hfresh _ hctx
      rw [hiff h hctx]
      cases stream with
      | true => exact batchesBounded_iff_of_decoded htokens hdecode rfl
      | false => exact batchesBounded_iff_of_decoded htokens hdecode rfl
  | answered h hctx htokens hdecode hpieces =>
      obtain rfl := hfresh _ hctx
      rw [hiff h hctx]
      cases stream with
      | true => exact batchesBounded_iff_of_decoded htokens hdecode rfl
      | false => exact batchesBounded_iff_of_decoded htokens hdecode rfl

/-- The batches of a request are in bounds exactly when its prompt has at most 512 tokens, or does
not come to be decoded. -/
theorem batches_bounded_iff {modelPath : String} {o : LoadOutcome} {e₀ : ServingEngine}
    (hinit : e₀.init modelPath o = (true, e))
    (h : Machine.exec (ServingEngine.call lib environ) e calls = some e') (tier : String)
    (stream : Bool) (prompt : String) (w : σ) :
    BatchesBounded (e'.request lib environ tier stream prompt w) ↔
      (e'.setExecutingTier tier).injects environ = true ∨ e'.ctx = none ∨
        (promptTokens lib environ prompt w).length ≤ 512 := by
  have hfresh : e'.Fresh := ServingEngine.fresh_of_exec (ServingEngine.fresh_init hinit) h
  have hfresh' : (e'.setExecutingTier tier).Fresh := hfresh
  exact batchesBounded_iff_of_course hfresh'
    ((e'.setExecutingTier tier).course lib environ prompt w) stream

/-- A tokenizer that makes a token of every character. -/
def perCharacter : Llama Unit where
  count _ text := -(text.length : ℤ)
  fill _ text _ := (text.length, fun i => ((text.toList[i]?).getD 'a').toNat)
  valid _ _ _ := true
  status _ _ _ := 0
  processed _ _ _ := 0
  after _ _ _ := ()
  sample _ _ := (1, ())
  isEog _ := true
  piece _ := "x"

/-- No template around the prompt. -/
def bare : Environ := fun name =>
  if name = "EDGE_PROMPT_TEMPLATE" then some "\x7bprompt\x7d" else none

theorem Llama.length_tokenize (lib : Llama σ) (w : σ) (text : String) :
    (lib.tokenize w text).length = if 0 ≤ lib.count w text then 0
      else (lib.fill w text (-lib.count w text).toNat).1.toNat := by
  simp only [tokenize]
  by_cases hempty : 0 ≤ lib.count w text
  · rw [if_pos hempty, if_pos hempty, List.length_nil]
  · rw [if_neg hempty, if_neg hempty]
    split_ifs with hwritten
    · exact (Int.toNat_of_nonpos hwritten).symm
    · rw [List.length_map, List.length_range]

theorem applyPromptTemplate_bare (prompt : String) : applyPromptTemplate bare prompt = prompt := by
  have hform : Text.afterFirst "\x7bprompt\x7d".toList "\x7bprompt\x7d".toList = some [] := by
    decide
  have hbare : (bare "EDGE_PROMPT_TEMPLATE").getD
      "<|user|>\n\x7bprompt\x7d<|end|>\n<|assistant|>\n" = "\x7bprompt\x7d" := rfl
  have hfront : "\x7bprompt\x7d".toList.length - ([] : List Char).length - 8 = 0 := rfl
  unfold applyPromptTemplate
  rw [hbare]
  simp only [hform, hfront]
  rw [List.take_zero, List.nil_append, List.append_nil, String.ofList_toList]

/-- Without a template a prompt has as many tokens as characters. -/
theorem length_promptTokens (prompt : String) :
    (promptTokens perCharacter bare prompt ()).length = prompt.length := by
  have hcount : perCharacter.count () prompt = -(prompt.length : ℤ) := rfl
  rw [promptTokens, applyPromptTemplate_bare, Llama.length_tokenize]
  split
  · omega
  · rfl

theorem batches_bounded_hello :
    ∃ e, ServingEngine.init { gpuLayers := 0, forceCpu := true } "model" ⟨false, true, true⟩ =
        (true, e) ∧
      BatchesBounded (e.request perCharacter bare "cpu" true "hello" ()) := by
  obtain ⟨e, hinit⟩ : ∃ e, ServingEngine.init { gpuLayers := 0, forceCpu := true } "model"
      ⟨false, true, true⟩ = (true, e) := ⟨_, Prod.ext (by decide) rfl⟩
  refine ⟨e, hinit, ?_⟩
  have hexec : Machine.exec (ServingEngine.call perCharacter bare) e [] = some e := rfl
  apply (batches_bounded_iff hinit hexec "cpu" true "hello" ()).mpr
  exact .inr (.inr (by
    rw [length_promptTokens]
    decide))

/-- A prompt of 513 characters is one batch. -/
theorem not_batches_bounded :
    ¬ ∀ (e : ServingEngine) (prompt : String),
      ServingEngine.init { gpuLayers := 0, forceCpu := true } "model" ⟨false, true, true⟩ =
        (true, e) →
      BatchesBounded (e.request perCharacter bare "cpu" true prompt ()) := by
  intro h
  obtain ⟨e, hinit⟩ : ∃ e, ServingEngine.init { gpuLayers := 0, forceCpu := true } "model"
      ⟨false, true, true⟩ = (true, e) := ⟨_, Prod.ext (by decide) rfl⟩
  have hinitial : e.Fresh := ServingEngine.fresh_init hinit
  have hfresh : (e.setExecutingTier "cpu").Fresh := hinitial
  obtain rfl : (ServingEngine.init _ "model" _).2 = e := congrArg Prod.snd hinit
  have hbounded := (batchesBounded_iff_of_course hfresh
    (ServingEngine.course perCharacter bare _ _ ()) true).mp
      (h _ (String.ofList (List.replicate 513 'a')) hinit)
  rw [length_promptTokens, String.length_ofList, List.length_replicate] at hbounded
  obtain hinjects | hctx | hshort := hbounded
  · revert hinjects
    decide
  · revert hctx
    decide
  · exact absurd hshort (by decide)

end ServeInfer.InferenceWorker
