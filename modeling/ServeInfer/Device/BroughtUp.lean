import ServeInfer.Device.RouterRuns

/-!
# Tiers that were not brought up

The hook refuses a tier when the engine could not be loaded there. The router then
ends the request or goes back, but the refused tier may stay the active one, and
the next walk starts on it. Such walks are the only way an adapter is called for a
tier that was refused.
-/

namespace ServeInfer.Device

/-- Whether the hook's last answer for a tier was no, after one more event. -/
def refusedAfter (refused : String → Bool) : RouterEvent → String → Bool
  | .hooked _ next answer => Function.update refused next !answer
  | _ => refused

/-- Whether the hook's last answer for a tier was no. -/
def refused (log : List RouterEvent) : String → Bool := log.foldl refusedAfter fun _ => false

/-- No adapter is called for a tier the hook has refused since it last accepted it. -/
def BroughtUp (log : List RouterEvent) : Prop :=
  ∀ (pre : List RouterEvent) (a : Attempt) (post : List RouterEvent),
    log = pre ++ .tried a :: post → a.call.isSome = true → refused pre a.tier = false

variable {log : List RouterEvent} {e : RouterEvent}

theorem refused_concat (log : List RouterEvent) (e : RouterEvent) :
    refused (log ++ [e]) = refusedAfter (refused log) e := by
  rw [refused, List.foldl_append]
  rfl

theorem broughtUp_nil : BroughtUp [] := by
  intro pre a post h
  exact absurd h.symm (List.append_ne_nil_of_right_ne_nil pre (List.cons_ne_nil _ _))

theorem BroughtUp.concat (h : BroughtUp log)
    (he : ∀ a, e = .tried a → a.call.isSome = true → refused log a.tier = false) :
    BroughtUp (log ++ [e]) := by
  intro pre a post heq hcall
  rcases List.eq_nil_or_concat post with rfl | ⟨post', last, rfl⟩
  · obtain ⟨rfl, hlast⟩ := List.append_inj' heq rfl
    rw [List.cons.injEq] at hlast
    exact he a hlast.1 hcall
  · rw [List.concat_eq_append, ← List.cons_append, ← List.append_assoc] at heq
    exact h pre a post' (List.append_inj' heq rfl).1 hcall

theorem exists_hooked_of_refused {tier : String} (h : refused log tier = true) :
    ∃ previous, RouterEvent.hooked previous tier false ∈ log := by
  induction log using List.reverseRecOn with
  | nil => cases h
  | append_singleton log e ih =>
      rw [refused_concat] at h
      cases e with
      | tried a =>
          obtain ⟨previous, hmem⟩ := ih h
          exact ⟨previous, List.mem_append_left _ hmem⟩
      | moved before after recovered =>
          obtain ⟨previous, hmem⟩ := ih h
          exact ⟨previous, List.mem_append_left _ hmem⟩
      | hooked previous next answer =>
          by_cases hnext : tier = next
          · subst hnext
            rw [refusedAfter, Function.update_self, Bool.not_eq_true'] at h
            subst h
            exact ⟨previous, List.mem_append_right _ (List.mem_singleton_self _)⟩
          · rw [refusedAfter, Function.update_of_ne hnext] at h
            obtain ⟨previous, hmem⟩ := ih h
            exact ⟨previous, List.mem_append_left _ hmem⟩

namespace Router

variable (env : RouterEnv)

/-- An adapter called for the tier would not run on a refused one. -/
def accepted (r : Router) (tier : String) : Bool := !(tier ∈ r.backends && refused r.log tier)

/-- No tier is refused at all. -/
def noneRefused (r : Router) : Bool :=
  r.log.all fun e =>
    match e with
    | .hooked _ next _ => !refused r.log next
    | _ => true

/-- The walk starts on a tier that was brought up: recovery leaves the ladder where the tier was not
refused, or the hook accepts the recovered tier, or it accepts the tier the ladder falls back to. -/
def startsBroughtUp (r : Router) : Bool :=
  match r.ladder.recoverEligibleTier env.toEnv with
  | (false, _) => r.accepted r.ladder.active
  | (true, l) =>
      match ((r.settle l true).logState env).callHook env r.ladder.active l.active with
      | (true, _) => true
      | (false, r') =>
          match r'.ladder.reportFault env.toEnv .runtimeError
              ("engine could not be brought up on recovered tier " ++ l.active) with
          | (false, _) => l.active ∉ r.backends
          | (true, l') =>
              match (r'.settle l' false).callHook env l.active l'.active with
              | (true, _) => true
              | (false, _) => l'.active ∉ r.backends

/-- The actions that do not lead to an execution on a refused tier. -/
def keepsBroughtUp (r : Router) : RouterAction → Bool
  | .route _ _ =>
      if r.ladder.active.isEmpty then
        match r.select env with
        | (false, _) => true
        | (true, r) => r.startsBroughtUp env
      else r.startsBroughtUp env
  | .setFallbackHook isSet => isSet || r.noneRefused
  | _ => true

/-- The log is in order, and without a hook no tier is refused. -/
structure Good (r : Router) : Prop where
  broughtUp : BroughtUp r.log
  unhooked : r.hookSet = false → ∀ tier, refused r.log tier = false

variable {env} {r r' : Router} {l : Ladder} {prompt previous next : String}
  {onToken recovered : Bool} {n : ℕ}

theorem refused_settle (r : Router) (l : Ladder) (recovered : Bool) :
    refused (r.settle l recovered).log = refused r.log := by
  unfold settle
  dsimp only
  split
  · rfl
  · rw [refused_concat]
    rfl

theorem good_kept (env : RouterEnv) : Kept env Good where
  settle := by
    intro r a asked l h _
    constructor
    · unfold Router.settle
      dsimp only
      split
      · exact h.broughtUp
      · refine h.broughtUp.concat ?_
        intro a ha
        cases ha
    · intro hset tier
      rw [refused_settle]
      exact h.unhooked hset tier
  looked h _ := ⟨h.broughtUp, h.unhooked⟩
  hooked := by
    intro r previous next answer h hset
    constructor
    · refine h.broughtUp.concat ?_
      intro a ha
      cases ha
    · intro hnot
      rw [hset] at hnot
      cases hnot

/-- A tier the hook lets stand is not refused afterwards. -/
theorem refused_of_callHook (h : r.Good) (heq : r.callHook env previous next = (true, r')) :
    refused r'.log next = false := by
  unfold Router.callHook at heq
  split at heq
  · rw [Prod.mk.injEq] at heq
    obtain ⟨hanswer, rfl⟩ := heq
    dsimp only
    rw [refused_concat, refusedAfter, Function.update_self, hanswer]
    rfl
  · rename_i hset
    rw [Prod.mk.injEq] at heq
    rw [← heq.2]
    exact h.unhooked (Bool.not_eq_true _ ▸ hset) next

theorem accepted_of_refused {tier : String} (h : refused r.log tier = false) :
    r.accepted tier = true := by
  rw [accepted, h, Bool.and_false]
  rfl

theorem accepted_of_notMem {tier : String} (h : tier ∉ r.backends) : r.accepted tier = true := by
  rw [accepted, decide_eq_false h]
  rfl

/-- Where the condition holds, the walk starts on a tier that was brought up. -/
theorem accepted_attemptRecovery (h : r.Good) (hstart : r.startsBroughtUp env = true) :
    (r.attemptRecovery env).2.accepted (r.attemptRecovery env).2.ladder.active = true := by
  have hquiet := quiet_attemptRecovery env r
  rw [startsBroughtUp] at hstart
  rw [Router.attemptRecovery] at hquiet ⊢
  cases hrecover : r.ladder.recoverEligibleTier env.toEnv with
  | mk moved l =>
      rw [hrecover] at hstart hquiet
      cases moved with
      | false =>
          have hactive : l.active = r.ladder.active := (Ladder.recover_kept hrecover).1
          dsimp only at hstart ⊢
          change (r.settle l true).accepted l.active = true
          rw [accepted, refused_settle, hactive]
          exact hstart
      | true =>
          dsimp only at hstart hquiet ⊢
          have hturn := Ladder.turn_recoverEligibleTier env.toEnv r.ladder
          rw [hrecover] at hturn
          have hmoved : (r.settle l true).Good := (good_kept env).settle h hturn
          have hgood := (good_kept env).logState hmoved
          have hactive : ((r.settle l true).logState env).ladder.active = l.active :=
            active_logState (r.settle l true)
          cases hhook : ((r.settle l true).logState env).callHook env r.ladder.active l.active with
          | mk answer r₁ =>
              have hgood₁ := (good_kept env).callHook hgood r.ladder.active l.active
              have hactive₁ := (active_callHook hhook).trans hactive
              rw [hhook] at hstart hquiet hgood₁
              cases answer with
              | true =>
                  dsimp only
                  rw [hactive₁]
                  exact accepted_of_refused (refused_of_callHook hgood hhook)
              | false =>
                  dsimp only at hstart hquiet hgood₁ ⊢
                  cases hreport : r₁.ladder.reportFault env.toEnv .runtimeError
                      ("engine could not be brought up on recovered tier " ++ l.active) with
                  | mk fell l₁ =>
                      rw [hreport] at hstart hquiet
                      cases fell with
                      | false =>
                          have hkept : l₁.active = l.active :=
                            (Ladder.reportFault_kept hreport).1.trans hactive₁
                          refine accepted_of_notMem ?_
                          rw [hquiet.backends]
                          change l₁.active ∉ r.backends
                          rw [hkept]
                          exact of_decide_eq_true hstart
                      | true =>
                          dsimp only at hstart hquiet ⊢
                          cases hback : (r₁.settle l₁ false).callHook env l.active l₁.active with
                          | mk answer r₂ =>
                              have hactive₂ : r₂.ladder.active = l₁.active := active_callHook hback
                              rw [hback] at hstart hquiet
                              dsimp only at hquiet ⊢
                              rw [hactive₂]
                              cases answer with
                              | true =>
                                  exact accepted_of_refused
                                    (refused_of_callHook ((good_kept env).reportFault hgood₁ hreport) hback)
                              | false =>
                                  refine accepted_of_notMem ?_
                                  rw [hquiet.backends]
                                  exact of_decide_eq_true hstart

theorem mem_of_attempt_call (h : (r.attempt env prompt onToken).call.isSome = true) :
    r.ladder.active ∈ r.backends := by
  unfold attempt at h
  dsimp only at h
  split at h
  · assumption
  · cases h

/-- A turn on a tier that was brought up keeps the log in order. -/
theorem Good.tried (h : r.Good) (haccepted : r.accepted r.ladder.active = true) :
    (r.tried (r.attempt env prompt onToken)).Good := by
  constructor
  · refine h.broughtUp.concat ?_
    intro a ha hcall
    cases ha
    rw [attempt_tier]
    have hmem := mem_of_attempt_call hcall
    rw [accepted, decide_eq_true hmem, Bool.true_and, Bool.not_eq_true'] at haccepted
    exact haccepted
  · intro hset tier
    have hsame : refused (r.tried (r.attempt env prompt onToken)).log = refused r.log :=
      refused_concat _ _
    rw [hsame]
    exact h.unhooked hset tier

/-- The walk goes on only where the hook let the next tier stand. -/
theorem Good.walk (h : r.Good) (haccepted : r.accepted r.ladder.active = true) :
    (walk env prompt onToken n r).2.Good := by
  refine (good_kept env).walk (fun r h haccepted => h.tried haccepted) ?_ h haccepted
  intro r previous next r' h hactive hhook
  rw [active_callHook hhook, hactive]
  exact accepted_of_refused (refused_of_callHook h hhook)

theorem Good.routeFrom (h : r.Good) (hstart : r.startsBroughtUp env = true) :
    (r.routeFrom env prompt onToken).2.Good :=
  ((good_kept env).attemptRecovery h).walk (accepted_attemptRecovery h hstart)

theorem noneRefused_spec (h : r.noneRefused = true) (tier : String) :
    refused r.log tier = false := by
  by_contra hrefused
  rw [Bool.not_eq_false] at hrefused
  obtain ⟨previous, hmem⟩ := exists_hooked_of_refused hrefused
  have hall := List.all_eq_true.mp h _ hmem
  dsimp only at hall
  rw [hrefused] at hall
  cases hall

theorem Good.step {action : RouterAction} (h : r.Good) (hok : r.keepsBroughtUp env action = true)
    (hstep : r.step env action = some r') : r'.Good := by
  cases action with
  | registerBackend name =>
      obtain rfl := Option.some.inj hstep
      exact ⟨h.broughtUp, h.unhooked⟩
  | setFallbackHook isSet =>
      obtain rfl := Option.some.inj hstep
      refine ⟨h.broughtUp, ?_⟩
      rintro rfl
      exact noneRefused_spec hok
  | select =>
      obtain rfl := Option.some.inj hstep
      exact (good_kept env).select h
  | beginSession =>
      obtain rfl := Option.some.inj hstep
      exact ⟨h.broughtUp, h.unhooked⟩
  | attemptRecovery =>
      obtain rfl := Option.some.inj hstep
      exact (good_kept env).attemptRecovery h
  | route prompt onToken =>
      obtain rfl := Option.some.inj hstep
      rw [keepsBroughtUp] at hok
      unfold Router.route
      split
      · rename_i hempty
        rw [if_pos hempty] at hok
        have hselect := (good_kept env).select h
        split
        · rename_i r₀ heq
          rw [heq] at hselect
          exact hselect
        · rename_i r₀ heq
          rw [heq] at hselect hok
          exact hselect.routeFrom hok
      · rename_i hactive
        rw [if_neg hactive] at hok
        exact h.routeFrom hok
  | ladder a =>
      obtain ⟨l, hl, rfl⟩ := Option.map_eq_some_iff.mp hstep
      exact (good_kept env).settle h (Ladder.turn_of_step hl)

/-- In every run whose walks all start on a tier that was brought up, and in which the hook is not
taken away while a tier is refused, no adapter is called for a refused tier. -/
theorem no_execution_on_refused (env : RouterEnv) (order : List String)
    (quarantineMs probeIntervalMs : ℤ) (actions : List RouterAction)
    (hguard : Machine.Guarded (Router.step env) (fun r a => r.keepsBroughtUp env a = true)
      (.ofOrder order quarantineMs probeIntervalMs) actions) :
    Machine.Always (Router.step env) (fun r => BroughtUp r.log)
      (.ofOrder order quarantineMs probeIntervalMs) actions := by
  intro pre hpre r hexec
  have hgood : r.Good := (hguard.restrict hpre).invariant (P := Router.Good)
    ⟨broughtUp_nil, fun _ _ => rfl⟩ (fun _ _ _ h hok hstep => h.step hok hstep) hexec
  exact hgood.broughtUp

/-- The ane tier faults at its first call; the hook accepts every tier but the ones named. -/
def hookRefuses (tiers : List String) : RouterEnv where
  clock n := n * (1000 * ticksPerMs)
  probe _ _ := .available
  executable _ _ := true
  execute n tier _ _ :=
    if tier = "ane" && n = 0 then ([], { fault := .unsupportedOp, detail := "unsupported" })
    else ([], { text := "answer" })
  onFallback _ _ next := next ∉ tiers
  hookReads _ := []

/-- Three adapters, the hook, the first selection and three requests. -/
def threeRequests : List RouterAction :=
  [.registerBackend "ane", .registerBackend "metal", .registerBackend "cpu",
    .setFallbackHook true, .select, .route "first" false, .route "second" false,
    .route "third" false]

/-- The recovered ane is refused at each request, and metal brought up again. -/
theorem no_execution_on_refused_ane :
    Machine.Always (Router.step (hookRefuses ["ane"])) (fun r => BroughtUp r.log)
      (.ofOrder ["ane", "metal", "cpu"] 2500 0) threeRequests :=
  no_execution_on_refused (hookRefuses ["ane"]) ["ane", "metal", "cpu"] 2500 0 threeRequests
    (by decide)

/-- The hook refuses metal after ane's fault, the first request ends with that fault, and the second
one runs on metal all the same. -/
theorem refused_tier_executed :
    ¬ ∀ (env : RouterEnv) (order : List String) (quarantineMs probeIntervalMs : ℤ)
      (actions : List RouterAction), Machine.Always (Router.step env) (fun r => BroughtUp r.log)
        (.ofOrder order quarantineMs probeIntervalMs) actions := by
  intro hall
  have halways := hall (hookRefuses ["metal"]) ["ane", "metal", "cpu"] 60000 0 threeRequests
  have hrun : ∃ r, Machine.exec (Router.step (hookRefuses ["metal"]))
      (.ofOrder ["ane", "metal", "cpu"] 60000 0) threeRequests = some r ∧
      ∃ a, r.log = r.log.take 4 ++ .tried a :: r.log.drop 5 ∧ a.call.isSome = true ∧
        refused (r.log.take 4) a.tier = true :=
    ⟨_, rfl, _, rfl, rfl, by decide⟩
  obtain ⟨r, hexec, a, hlog, hcall, hrefused⟩ := hrun
  have hfalse := halways.last hexec (r.log.take 4) a (r.log.drop 5) hlog hcall
  rw [hrefused] at hfalse
  cases hfalse

end Router

end ServeInfer.Device
