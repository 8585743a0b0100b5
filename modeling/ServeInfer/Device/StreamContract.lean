import ServeInfer.Device.Adapters
import ServeInfer.Device.RouterRuns

/-!
# What the caller of `route` sees

The tokens of every tier the walk tries reach the sink as they come, and the text
of the result is that of the tier the walk ended on. Each fallback goes down the
ladder, so the loop always ends in one of its returns.
-/

namespace ServeInfer.Device

/-- The tokens the adapter emitted in the attempt, if the tier has one. -/
def Attempt.emitted (env : RouterEnv) (prompt : String) (a : Attempt) : List String :=
  a.call.elim [] fun m => (env.execute m a.tier prompt true).1

/-- The text the adapter answered in the attempt, if the tier has one. -/
def Attempt.answer (env : RouterEnv) (prompt : String) (a : Attempt) : String :=
  a.call.elim "" fun m => (env.execute m a.tier prompt true).2.text

/-- The attempts call `execute` one after another, from a number of calls on, and hand on what it
emits and answers. -/
def Calls (env : RouterEnv) (prompt : String) : ℕ → List Attempt → Prop
  | _, [] => True
  | m, a :: as =>
      (a.call = none ∧ Calls env prompt m as ∨ a.call = some m ∧ Calls env prompt (m + 1) as) ∧
        a.tokens = a.emitted env prompt ∧ a.execution.text = a.answer env prompt

variable {env : RouterEnv} {prompt : String} {a : Attempt}

theorem Calls.flatMap_tokens {as : List Attempt} {m : ℕ} (h : Calls env prompt m as) :
    as.flatMap Attempt.tokens = as.flatMap (Attempt.emitted env prompt) := by
  induction as generalizing m with
  | nil => rfl
  | cons a as ih =>
      obtain ⟨hcall, htokens, -⟩ := h
      have hrest : as.flatMap Attempt.tokens = as.flatMap (Attempt.emitted env prompt) := by
        rcases hcall with ⟨-, hcalls⟩ | ⟨-, hcalls⟩
        · exact ih hcalls
        · exact ih hcalls
      rw [List.flatMap_cons, List.flatMap_cons, htokens, hrest]

theorem Calls.text {as : List Attempt} {m : ℕ} (h : Calls env prompt m as) (ha : a ∈ as) :
    a.execution.text = a.answer env prompt := by
  induction as generalizing m with
  | nil => cases ha
  | cons b as ih =>
      obtain ⟨hcall, -, htext⟩ := h
      rcases List.mem_cons.mp ha with rfl | hmem
      · exact htext
      · rcases hcall with ⟨-, hcalls⟩ | ⟨-, hcalls⟩
        · exact ih hcalls hmem
        · exact ih hcalls hmem

/-- `execute` is called for one attempt after the other. -/
theorem Calls.numbers {as : List Attempt} {m : ℕ} (h : Calls env prompt m as) :
    as.filterMap Attempt.call = List.range' m (as.filterMap Attempt.call).length := by
  induction as generalizing m with
  | nil => rfl
  | cons a as ih =>
      rcases h.1 with ⟨hnone, hcalls⟩ | ⟨hsome, hcalls⟩
      · rw [List.filterMap_cons, hnone]
        exact ih hcalls
      · rw [List.filterMap_cons, hsome]
        dsimp only
        rw [List.length_cons, List.range'_succ, ← ih hcalls]

theorem answer_eq_join (hconcat : ∀ m tier, Concatenates (env.execute m tier prompt true))
    (a : Attempt) : a.answer env prompt = String.join (a.emitted env prompt) := by
  unfold Attempt.answer Attempt.emitted
  cases a.call with
  | none => exact String.join_nil.symm
  | some m => exact hconcat m a.tier

namespace Router

variable {r r' : Router} {previous next : String} {n : ℕ}

theorem text_outcome (tier : String) (executable : Bool) (execution : BackendExecution) :
    (outcome tier executable execution).text = execution.text := by
  unfold outcome
  split <;> rfl

/-- An attempt calls the active tier's adapter, if there is one. -/
theorem attempt_cases (env : RouterEnv) (r : Router) (prompt : String) :
    ((r.attempt env prompt true).call = none ∨
        (r.attempt env prompt true).call = some r.executions) ∧
      (r.attempt env prompt true).tokens = (r.attempt env prompt true).emitted env prompt ∧
      (r.attempt env prompt true).execution.text =
        (r.attempt env prompt true).answer env prompt := by
  unfold attempt
  dsimp only
  split
  · exact ⟨.inr rfl, rfl, text_outcome _ _ _⟩
  · exact ⟨.inl rfl, rfl, rfl⟩

theorem executions_tried (r : Router) (a : Attempt) :
    (r.tried a).executions = if a.call.isSome then r.executions + 1 else r.executions := rfl

theorem calls_cons (hattempt : r.attempt env prompt true = a) {as : List Attempt}
    (h : Calls env prompt (r.tried a).executions as) : Calls env prompt r.executions (a :: as) := by
  have hcases := attempt_cases env r prompt
  rw [hattempt] at hcases
  rw [executions_tried] at h
  refine ⟨?_, hcases.2⟩
  rcases hcases.1 with hcall | hcall
  · rw [hcall] at h
    exact .inl ⟨hcall, h⟩
  · rw [hcall] at h
    exact .inr ⟨hcall, h⟩

/-- The router on which the walk goes on: the ladder has moved down and nothing was tried since. -/
theorem next_spec {l : Ladder} {answer : Bool}
    (hreport : r.ladder.reportFault env.toEnv a.execution.fault a.execution.detail = (true, l))
    (hhook : (((r.tried a).settle l false).logState env).callHook env a.tier l.active =
      (answer, r')) :
    Quiet (r.tried a) r' ∧ r.ladder.activeIndex < r'.ladder.activeIndex ∧
      r'.ladder.activeIndex < r.ladder.tiers.length := by
  have hmoved : Quiet (r.tried a) ((r.tried a).settle l false) :=
    quiet_settle (r.tried a) false (names_reportFault (r := r) hreport)
  have hlogged := hmoved.trans (quiet_logState env _)
  have hquiet := quiet_callHook env (((r.tried a).settle l false).logState env) a.tier
    l.active
  obtain ⟨asked, hlooks⟩ := looks_callHook env
    (((r.tried a).settle l false).logState env) a.tier l.active
  rw [hhook] at hquiet hlooks
  have hindex : r'.ladder.activeIndex = l.activeIndex := by
    have hstate := (Ladder.looks_tierState env.toEnv l l.activeIndex).rest
    have hrest := hlooks.rest
    have hlast : r'.ladder.activeIndex =
        (((r.tried a).settle l false).logState env).ladder.activeIndex := by rw [hrest]
    rw [hlast]
    change (l.tierState env.toEnv l.activeIndex).activeIndex = l.activeIndex
    rw [hstate]
  have hall := hlogged.trans hquiet
  have hbelow := Ladder.reportFault_below hreport
  have hcount := hmoved.count
  change l.tiers.length = r.ladder.tiers.length at hcount
  rw [hindex]
  refine ⟨hall, hbelow.1, ?_⟩
  rw [← hcount]
  exact hbelow.2

/-- The walk ends in one of its returns: there is a last attempt, whose text it returns. -/
theorem walk_spec (env : RouterEnv) (prompt : String) (n : ℕ) (r : Router) (hpos : 0 < n)
    (hfuel : r.ladder.tiers.length + 1 ≤ n + r.ladder.activeIndex) :
    ∃ as last, (walk env prompt true n r).2.attempts = r.attempts ++ (as ++ [last]) ∧
      Calls env prompt r.executions (as ++ [last]) ∧
      (walk env prompt true n r).2.streamed =
        r.streamed ++ (as ++ [last]).flatMap Attempt.tokens ∧
      (walk env prompt true n r).1.text = last.execution.text := by
  induction n generalizing r with
  | zero => exact absurd hpos (Nat.lt_irrefl 0)
  | succ n ih =>
      have hturn := turned_walk env prompt true n r
      generalize ha : r.attempt env prompt true = a at hturn
      have hlast : Calls env prompt r.executions ([] ++ [a]) := calls_cons ha trivial
      generalize walk env prompt true (n + 1) r = out at hturn
      cases hturn with
      | served hok =>
          refine ⟨[], a, attempts_tried r a, hlast, ?_, rfl⟩
          simp [tried]
      | kept hfault hreport =>
          have hquiet := quiet_settle (r.tried a) false (names_reportFault (r := r) hreport)
          refine ⟨[], a, hquiet.attempts.trans (attempts_tried r a), hlast, ?_, rfl⟩
          rw [hquiet.streamed]
          simp [tried]
      | refused hfault hreport hhook =>
          obtain ⟨hquiet, -, -⟩ := next_spec hreport hhook
          refine ⟨[], a, hquiet.attempts.trans (attempts_tried r a), hlast, ?_, rfl⟩
          rw [hquiet.streamed]
          simp [tried]
      | @next l r' hfault hreport hhook =>
          obtain ⟨hquiet, hbelow, hon⟩ := next_spec hreport hhook
          have hcount := hquiet.count
          rw [ladder_tried] at hcount
          have hpos' : 0 < n := by omega
          have hfuel' : r'.ladder.tiers.length + 1 ≤ n + r'.ladder.activeIndex := by omega
          obtain ⟨as, last, hattempts, hcalls, hstreamed, htext⟩ := ih r' hpos' hfuel'
          rw [hquiet.executions] at hcalls
          refine ⟨a :: as, last, ?_, calls_cons ha hcalls, ?_, htext⟩
          · rw [hattempts, hquiet.attempts, attempts_tried]
            simp
          · rw [hstreamed, hquiet.streamed]
            simp [tried]

theorem walk_route (env : RouterEnv) (r : Router) (prompt : String) :
    ∃ as last, (r.routeFrom env prompt true).2.attempts = r.attempts ++ (as ++ [last]) ∧
      Calls env prompt r.executions (as ++ [last]) ∧
      (r.routeFrom env prompt true).2.streamed =
        r.streamed ++ (as ++ [last]).flatMap Attempt.tokens ∧
      (r.routeFrom env prompt true).1.text = last.execution.text := by
  have hquiet := quiet_attemptRecovery env r
  have hspec := walk_spec env prompt _ (r.attemptRecovery env).2 (Nat.succ_pos _)
    (Nat.le_add_right _ _)
  rw [hquiet.attempts, hquiet.executions, hquiet.streamed] at hspec
  exact hspec

/-- The attempts of a whole route call: none where no tier is usable. -/
theorem route_spec (env : RouterEnv) (r : Router) (prompt : String) :
    ∃ as, (r.route env prompt true).2.attempts = r.attempts ++ as ∧
      Calls env prompt r.executions as ∧
      (r.route env prompt true).2.streamed = r.streamed ++ as.flatMap Attempt.tokens ∧
      (r.route env prompt true).1.text = as.getLast?.elim "" fun a => a.execution.text := by
  have hfrom : ∀ r₀ : Router, Quiet r r₀ → ∃ as,
      (r₀.routeFrom env prompt true).2.attempts = r.attempts ++ as ∧
        Calls env prompt r.executions as ∧
        (r₀.routeFrom env prompt true).2.streamed = r.streamed ++ as.flatMap Attempt.tokens ∧
        (r₀.routeFrom env prompt true).1.text =
          as.getLast?.elim "" fun a => a.execution.text := by
    intro r₀ hquiet
    obtain ⟨as, last, hattempts, hcalls, hstreamed, htext⟩ := walk_route env r₀ prompt
    rw [hquiet.attempts] at hattempts
    rw [hquiet.executions] at hcalls
    rw [hquiet.streamed] at hstreamed
    refine ⟨as ++ [last], hattempts, hcalls, hstreamed, ?_⟩
    rw [List.getLast?_concat]
    exact htext
  have hselect := quiet_select env r
  unfold route
  split
  · split
    · rename_i r' heq
      rw [heq] at hselect
      refine ⟨[], ?_, trivial, ?_, rfl⟩
      · rw [hselect.attempts, List.append_nil]
      · rw [hselect.streamed, List.flatMap_nil, List.append_nil]
    · rename_i r' heq
      rw [heq] at hselect
      exact hfrom r' hselect
  · exact hfrom r (.refl r)

/-- What `route` streams and returns: the tokens of the executed tiers, in the order of their calls,
and the text of the last tier tried, which the streamed text ends with. -/
structure StreamKept (env : RouterEnv) (prompt : String) (r : Router) (out : RouteResult × Router)
    (as : List Attempt) : Prop where
  attempts : out.2.attempts = r.attempts ++ as
  order : as.filterMap Attempt.call =
    List.range' r.executions (as.filterMap Attempt.call).length
  streamed : out.2.streamed = r.streamed ++ as.flatMap (Attempt.emitted env prompt)
  text : out.1.text = as.getLast?.elim "" (Attempt.answer env prompt)
  suffix : ∃ before, String.join (as.flatMap (Attempt.emitted env prompt)) = before ++ out.1.text

/-- From any state of the ladder, with any faults and hook, over adapters that answer what they
have emitted, `route` streams and returns what its tiers emitted. -/
theorem streaming_contract (env : RouterEnv) (prompt : String)
    (hconcat : ∀ m tier, Concatenates (env.execute m tier prompt true)) (r : Router) :
    ∃ as, StreamKept env prompt r (r.route env prompt true) as := by
  obtain ⟨as, hattempts, hcalls, hstreamed, htext⟩ := route_spec env r prompt
  have hemitted := hcalls.flatMap_tokens
  have hanswer : (r.route env prompt true).1.text =
      as.getLast?.elim "" (Attempt.answer env prompt) := by
    rw [htext]
    cases hlast : as.getLast? with
    | none => rfl
    | some last => exact hcalls.text (List.mem_of_getLast? hlast)
  refine ⟨as, hattempts, hcalls.numbers, hemitted ▸ hstreamed, hanswer, ?_⟩
  rw [hanswer]
  rcases List.eq_nil_or_concat as with rfl | ⟨init, last, rfl⟩
  · exact ⟨"", rfl⟩
  · rw [List.concat_eq_append, List.getLast?_concat, List.flatMap_append, String.join_append]
    refine ⟨String.join (init.flatMap (Attempt.emitted env prompt)), ?_⟩
    rw [Option.elim_some, answer_eq_join hconcat]
    simp

/-- Cuda faults after two tokens, and cpu answers. -/
def cudaFaults : RouterEnv where
  clock _ := 0
  probe _ _ := .available
  executable _ _ := true
  execute _ tier _ onToken :=
    if tier = "cuda" then
      runThroughEngine (some ⟨["par", "tial"], "", .runtimeError, "decode failed"⟩) onToken
    else runThroughEngine (some ⟨["the ", "answer"], "", .none, ""⟩) onToken
  onFallback _ _ _ := true
  hookReads _ := []

theorem streaming_contract_cudaFaults : ∃ as, StreamKept cudaFaults "prompt"
    { Router.ofOrder ["cuda", "cpu"] 60000 0 with backends := ["cuda", "cpu"] }
    (({ Router.ofOrder ["cuda", "cpu"] 60000 0 with backends := ["cuda", "cpu"] } : Router).route
      cudaFaults "prompt" true) as :=
  streaming_contract cudaFaults "prompt"
    (by
      intro m tier
      dsimp only [cudaFaults]
      split
      · exact concatenates_runThroughEngine _
      · exact concatenates_runThroughEngine _)
    { Router.ofOrder ["cuda", "cpu"] 60000 0 with backends := ["cuda", "cpu"] }

example : (({ Router.ofOrder ["cuda", "cpu"] 60000 0 with backends := ["cuda", "cpu"] } :
    Router).route cudaFaults "prompt" true).2.streamed = ["par", "tial", "the ", "answer"] := by
  decide

end Router

end ServeInfer.Device
