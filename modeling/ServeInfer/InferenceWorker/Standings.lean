import ServeInfer.InferenceWorker.WorkerProcess

/-!
# Where a worker has stood

Properties of the tier and the engine that are to hold after `init` and after each
tier change. Each is decided by the setting of `init` and by a condition on the
calls of the hook: which tier is next, and how the load goes.
-/

namespace ServeInfer.InferenceWorker

namespace WorkerProcess

open Device
open Supervisor (knownBackends)

variable {env : WorkerEnv} {config : WorkerConfig} {p p' : WorkerProcess} {job : InferenceJob}
  {tier : String} {a : Action} {S : Standing → Prop} {ok : WorkerProcess → TierChange → Prop}

/-- Where the process has stood so far, and where it stands. -/
def states (p : WorkerProcess) : List Standing := p.visited ++ [p.standing]

/-- A settled process has visited the place where it stands. -/
theorem Settled.forall_states (h : p.Settled env) (S : Standing → Prop) :
    (∀ s ∈ p.states, S s) ↔ ∀ s ∈ p.visited, S s := by
  constructor
  · exact fun hall s hs => hall s (List.mem_append_left _ hs)
  · intro hall s hs
    obtain hs | hs := List.mem_append.mp hs
    · exact hall s hs
    · obtain rfl := List.mem_singleton.mp hs
      exact hall _ (List.mem_of_getLast? h.visited)

/-- A call of the hook, as a step. -/
def hooked (env : WorkerEnv) (p : WorkerProcess) (c : TierChange) : Option WorkerProcess :=
  some (p.changed env c)

/-- Every call of the hook while a request is answered meets the condition. -/
def HookGuarded (env : WorkerEnv) (ok : WorkerProcess → TierChange → Prop) (p : WorkerProcess) :
    Action → Prop
  | .accept job => Machine.Guarded (hooked env) ok p (p.changes env job)
  | .requestStop => True

instance decidableHookGuarded [∀ p c, Decidable (ok p c)] :
    (p : WorkerProcess) → (a : Action) → Decidable (HookGuarded env ok p a)
  | p, .accept job => inferInstanceAs (Decidable (Machine.Guarded (hooked env) ok p (p.changes env job)))
  | _, .requestStop => inferInstanceAs (Decidable True)

/-- The condition says of a call of the hook whether the property holds where the call leads to. -/
def Decides (env : WorkerEnv) (S : Standing → Prop) (ok : WorkerProcess → TierChange → Prop) :
    Prop :=
  ∀ p c tier, S ⟨tier, p.engine⟩ → (S ⟨c.next, p.reloaded env c.next⟩ ↔ ok p c)

theorem Decides.changes (h : Decides env S ok) (hlast : p.visited.getLast? = some ⟨tier, p.engine⟩)
    (hall : ∀ s ∈ p.visited, S s) (cs : List TierChange) :
    (∀ s ∈ (cs.foldl (changed env) p).visited, S s) ↔ Machine.Guarded (hooked env) ok p cs := by
  refine Machine.lasts_iff_guarded
    (I := fun p => ∃ tier, p.visited.getLast? = some ⟨tier, p.engine⟩)
    (P := fun p => ∀ s ∈ p.visited, S s) ⟨tier, hlast⟩ hall ?_ ?_ ?_ (exec_changes env p cs)
  · rintro p c _ - ⟨⟩
    refine ⟨c.next, ?_⟩
    rw [visited_changed, engine_changed, List.getLast?_concat]
  · rintro p c _ ⟨⟩ hall s hs
    refine hall s ?_
    rw [visited_changed]
    exact List.mem_append_left _ hs
  · rintro p c _ ⟨tier, hlast⟩ hall ⟨⟩
    rw [visited_changed, ← h p c tier (hall _ (List.mem_of_getLast? hlast))]
    simp only [List.forall_mem_append, List.forall_mem_singleton]
    exact and_iff_right hall

theorem visited_changes (env : WorkerEnv) (p : WorkerProcess) (cs : List TierChange) :
    p.visited <+: (cs.foldl (changed env) p).visited := by
  induction cs generalizing p with
  | nil => exact List.prefix_rfl
  | cons c cs ih =>
      refine List.IsPrefix.trans ?_ (ih (p.changed env c))
      rw [visited_changed]
      exact List.prefix_append _ _

theorem visited_step (hstep : step env p a = some p') : p.visited <+: p'.visited := by
  cases a with
  | accept job =>
      obtain ⟨-, heq⟩ := Option.ite_none_right_eq_some.mp hstep
      obtain rfl := Option.some.inj heq
      exact visited_changes env p _
  | requestStop =>
      obtain rfl := Option.some.inj hstep
      exact List.prefix_rfl

/-- The standings of a run all have the property exactly where that of `init` has it and every call
of the hook meets the condition. -/
theorem Decides.run (h : Decides env S ok) {as : List Action} (hinit : init env config = some p)
    (hexec : Machine.exec (step env) p as = some p') :
    (∀ s ∈ p'.states, S s) ↔
      S p.standing ∧ Machine.Guarded (step env) (HookGuarded env ok) p as := by
  have hstart : p.visited = [p.standing] := by
    obtain ⟨router, -, rfl⟩ := init_spec hinit
    rfl
  have hsettled := settled_init hinit
  rw [(settled_of_exec hinit hexec).forall_states]
  by_cases hfirst : S p.standing
  · rw [and_iff_right hfirst]
    refine Machine.lasts_iff_guarded (I := Settled env) (P := fun p => ∀ s ∈ p.visited, S s)
      hsettled ?_ (fun _ _ _ h hstep => h.step hstep) ?_ ?_ hexec
    · rw [hstart]
      exact List.forall_mem_singleton.mpr hfirst
    · exact fun p a p' hstep hall s hs => hall s ((visited_step hstep).subset hs)
    · intro p a p' hp hall hstep
      cases a with
      | accept job =>
          obtain ⟨-, heq⟩ := Option.ite_none_right_eq_some.mp hstep
          obtain rfl := Option.some.inj heq
          exact h.changes hp.visited hall _
      | requestStop =>
          obtain rfl := Option.some.inj hstep
          exact iff_of_true hall trivial
  · refine iff_of_false (fun hall => hfirst (hall _ ?_)) fun hboth => hfirst hboth.1
    have hkept : p.visited <+: p'.visited :=
      Machine.exec_invariant (P := fun q => p.visited <+: q.visited) List.prefix_rfl
        (fun q a q' hq hstep => hq.trans (visited_step hstep)) hexec
    apply hkept.subset
    rw [hstart]
    exact List.mem_singleton_self _

/-- `init` settles on cuda and loads the model with no layer on the GPU. -/
def StartsWithoutGpu (env : WorkerEnv) (config : WorkerConfig) (router : Router) : Prop :=
  router.ladder.active = "cuda" ∧ (config.forceCpu = true ∨ (env.loads 0).offloaded = false)

instance {router : Router} : Decidable (StartsWithoutGpu env config router) :=
  inferInstanceAs (Decidable (_ ∧ _))

/-- The tier on which `init` ends: a fault is reported where the load has missed the GPU. -/
theorem standing_init (hinit : init env config = some p) :
    ∃ router, selectDevice env config = some router ∧
      p.standing = ⟨if StartsWithoutGpu env config router then
        (reportStartup env router).ladder.active else router.ladder.active,
        startEngine env config router⟩ := by
  obtain ⟨router, hselect, rfl⟩ := init_spec hinit
  refine ⟨router, hselect, ?_⟩
  have hregister (names : List String) (r : Router) :
      (names.foldl Router.registerBackend r).ladder.active = r.ladder.active := by
    induction names generalizing r with
    | nil => rfl
    | cons name names ih => exact ih _
  have hmissed : (router.ladder.active = "cuda" &&
      !(env.loads 0).offloads (startForce env config router)) = true ↔
        StartsWithoutGpu env config router := by
    rw [Bool.and_eq_true, decide_eq_true_iff]
    refine and_congr_right fun hcuda => ?_
    simp [LoadOutcome.offloads, startForce, WorkerEnv.tierOffloads, hcuda]
  unfold standing startRouter install
  dsimp only
  rw [hregister, Standing.mk.injEq, and_iff_left rfl, if_congr hmissed rfl rfl]
  split <;> rfl

end WorkerProcess

end ServeInfer.InferenceWorker
