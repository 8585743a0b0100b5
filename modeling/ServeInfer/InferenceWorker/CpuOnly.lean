import ServeInfer.InferenceWorker.Standings

/-!
# A worker that is cpu only

A context on the GPU stays until the process exits, so a worker that falls to the cpu
with one answers the request at hand and exits. It does so at a fall whose reload
succeeds. A recovery to the cpu, a fall whose reload fails and the fall of `init`
leave the worker on the cpu with the context it has.
-/

namespace ServeInfer.InferenceWorker

open Device
open Supervisor (knownBackends reassignCpu)

namespace WorkerProcess

variable {env : WorkerEnv} {config : WorkerConfig} {p p' q : WorkerProcess} {as pre : List Action}
  {job : InferenceJob} {tier last : String} {c : TierChange} {cs u : List TierChange} {n : ℕ}

/-- A fault has moved the worker to the cpu. -/
def FellToCpu (c : TierChange) : Prop :=
  c.previous ≠ "cpu" ∧ c.next = "cpu" ∧ c.recovered = false

/-- The process accepts no more requests, and exits to be started anew as a cpu worker. -/
def LeavesAsCpu (p : WorkerProcess) : Prop := p.running = false ∧ p.exitCode = reassignCpu

/-- A process without a context accepts the request if it is on the cpu; if one with a context
answers on the cpu, then because the request's own fault has moved it there, and it exits. -/
structure CpuOnly (env : WorkerEnv) (p : WorkerProcess) (job : InferenceJob) : Prop where
  accepted : p.standing.tier = "cpu" → p.engine.deviceResourcesResident = false
  answered : (p.serve env job).standing.tier = "cpu" →
    (p.serve env job).engine.deviceResourcesResident = true →
      (p.serve env job).LeavesAsCpu ∧ ∃ c ∈ p.changes env job, FellToCpu c

/-- `init` does not go from cuda to the cpu after a load that has asked for the GPU. -/
def StartsApart (env : WorkerEnv) (config : WorkerConfig) : Prop :=
  ∀ router, selectDevice env config = some router → StartsWithoutGpu env config router →
    config.forceCpu = true ∨ (reportStartup env router).ladder.active ≠ "cpu"

/-- A process with a context goes to the cpu by a fall alone, which the hook takes for one, and its
reload succeeds. -/
def FallsForGood (env : WorkerEnv) (p : WorkerProcess) (c : TierChange) : Prop :=
  c.next = "cpu" → p.engine.deviceResourcesResident = true →
    c.recovered = false ∧ p.recovering c.previous c.next = false ∧
      (env.loads p.loads).succeeds true = true

instance : DecidableRel (FallsForGood env) := fun _ _ => inferInstanceAs (Decidable (_ → _ → _))

theorem resident_changed (env : WorkerEnv) (p : WorkerProcess) (c : TierChange) :
    (p.changed env c).engine.deviceResourcesResident =
      (p.engine.deviceResourcesResident || c.next ≠ "cpu") := by
  rw [engine_changed, reloaded_eq]
  rfl

theorem LeavesAsCpu.changed (h : p.LeavesAsCpu) (env : WorkerEnv) (c : TierChange) :
    (p.changed env c).LeavesAsCpu := by
  rw [WorkerProcess.changed, onTierChanged_eq]
  refine ⟨?_, ?_⟩
  · dsimp only
    rw [h.1]
    rfl
  · dsimp only
    split
    · rfl
    · exact h.2

/-- A fall to the cpu ends a process with a context. -/
theorem leaves_changed (hreexec : p.config.reexecAfterDeviceClassFallback = true)
    (hprevious : c.previous ≠ "cpu") (hnext : c.next = "cpu")
    (hresident : p.engine.deviceResourcesResident = true)
    (hfall : p.recovering c.previous c.next = false)
    (hload : (env.loads p.loads).succeeds true = true) : (p.changed env c).LeavesAsCpu := by
  have hexits : p.exits env c.previous c.next = true := by
    rw [exits, hfall, hreexec, InferEngine.requiresProcessRestartForCpuOnly]
    simp [hprevious, hnext, hresident, hload]
  rw [changed, onTierChanged_eq, hexits]
  exact ⟨Bool.and_false _, rfl⟩

/-- Calls of the hook that all fall for good: a process with a context that ends on the cpu leaves,
and one of the calls has moved it there. -/
theorem leaves_changes (hreexec : p.config.reexecAfterDeviceClassFallback = true)
    (hled : Led env.router n tier cs last)
    (hguard : Machine.Guarded (hooked env) (FallsForGood env) p cs)
    (hstart : tier = "cpu" → p.engine.deviceResourcesResident = true →
      p.LeavesAsCpu ∧ ∃ c ∈ u, FellToCpu c)
    (hlast : last = "cpu")
    (hresident : (cs.foldl (changed env) p).engine.deviceResourcesResident = true) :
    (cs.foldl (changed env) p).LeavesAsCpu ∧ ∃ c ∈ u ++ cs, FellToCpu c := by
  induction hled generalizing p u with
  | stay n tier =>
      rw [List.append_nil]
      exact hstart hlast hresident
  | @change n tier next last recovered cs rest ih =>
      obtain ⟨hok, hrest⟩ := Machine.guarded_cons.mp hguard
      have hstep := ih (p := p.changed env ⟨tier, next, recovered, _⟩)
        (u := u ++ [⟨tier, next, recovered, env.router.onFallback n tier next⟩])
        ((along_changed env p _).config ▸ hreexec) (hrest _ rfl) ?_ hlast hresident
      · rw [List.append_assoc, List.singleton_append] at hstep
        exact hstep
      · intro hnext hresident
        rw [resident_changed] at hresident
        dsimp only at hresident
        rw [hnext] at hresident
        simp only [ne_eq, not_true_eq_false, decide_false, Bool.or_false] at hresident
        obtain ⟨hfell, hfall, hload⟩ := hok hnext hresident
        by_cases htier : tier = "cpu"
        · obtain ⟨hleaves, c, hc, hto⟩ := hstart htier hresident
          exact ⟨hleaves.changed env _, c, List.mem_append_left _ hc, hto⟩
        · exact ⟨leaves_changed hreexec htier hnext hresident hfall hload, _,
            List.mem_append_right _ (List.mem_singleton_self _), htier, hnext, hfell⟩

/-- What holds of a worker that accepts requests. -/
structure Apart (env : WorkerEnv) (p : WorkerProcess) : Prop where
  settled : p.Settled env
  reexec : p.config.reexecAfterDeviceClassFallback = true
  accepted : p.running = true → p.standing.tier = "cpu" → p.engine.deviceResourcesResident = false

/-- A request that a worker accepts and answers by calls that fall for good. -/
theorem Apart.cpuOnly (h : p.Apart env) (hrunning : p.running = true)
    (hguard : HookGuarded env (FallsForGood env) p (.accept job)) : CpuOnly env p job := by
  refine ⟨h.accepted hrunning, fun hcpu hresident => ?_⟩
  obtain ⟨hled, -⟩ := h.settled.changes job
  refine leaves_changes (u := []) h.reexec hled hguard ?_ hcpu hresident
  intro htier hbefore
  rw [h.accepted hrunning htier] at hbefore
  cases hbefore

theorem config_step {a : Action} (hstep : p.step env a = some p') : p'.config = p.config := by
  cases a with
  | accept job =>
      obtain ⟨-, heq⟩ := Option.ite_none_right_eq_some.mp hstep
      obtain rfl := Option.some.inj heq
      exact (along_foldl env p _).config
  | requestStop =>
      obtain rfl := Option.some.inj hstep
      rfl

theorem Apart.step {a : Action} (h : p.Apart env) (hguard : HookGuarded env (FallsForGood env) p a)
    (hstep : p.step env a = some p') : p'.Apart env := by
  refine ⟨h.settled.step hstep, (config_step hstep) ▸ h.reexec, ?_⟩
  cases a with
  | accept job =>
      obtain ⟨hrunning, heq⟩ := Option.ite_none_right_eq_some.mp hstep
      obtain rfl := Option.some.inj heq
      intro hstill hcpu
      by_contra hresident
      have hleaves := ((h.cpuOnly hrunning hguard).answered hcpu
        (Bool.eq_true_of_not_eq_false hresident)).1
      rw [hleaves.1] at hstill
      cases hstill
  | requestStop =>
      obtain rfl := Option.some.inj hstep
      intro hstill
      cases hstill

theorem apart_init (hinit : init env config = some p)
    (hreexec : config.reexecAfterDeviceClassFallback = true) (hstart : StartsApart env config) :
    p.Apart env := by
  obtain ⟨router, hselect, hstanding⟩ := standing_init hinit
  have hconfig : p.config = config := by
    obtain ⟨router', -, rfl⟩ := init_spec hinit
    rfl
  refine ⟨settled_init hinit, hconfig ▸ hreexec, fun _ hcpu => ?_⟩
  have hengine : p.engine = startEngine env config router := congrArg Standing.engine hstanding
  rw [hstanding] at hcpu
  dsimp only at hcpu
  rw [hengine]
  show (!startForce env config router) = false
  rw [startForce]
  by_cases hmissed : StartsWithoutGpu env config router
  · rw [if_pos hmissed] at hcpu
    rcases hstart router hselect hmissed with hforce | hother
    · rw [hforce]
      rfl
    · exact absurd hcpu hother
  · rw [if_neg hmissed] at hcpu
    rw [hcpu]
    simp [WorkerEnv.tierOffloads]

/-- With re-exec on: where `init` does not end on the cpu with a context, and every move of a process
with a context to the cpu is a fall whose reload succeeds, a worker is cpu only. -/
theorem cpu_only_of_falls (hinit : init env config = some p)
    (hreexec : config.reexecAfterDeviceClassFallback = true) (hstart : StartsApart env config)
    (hguard : Machine.Guarded (step env) (HookGuarded env (FallsForGood env)) p as)
    (haccept : pre ++ [.accept job] <+: as) (hexec : Machine.exec (step env) p pre = some q)
    (hrunning : q.running = true) : CpuOnly env q job := by
  have hbefore := hguard.restrict ((List.prefix_append pre [.accept job]).trans haccept)
  have hapart : q.Apart env := hbefore.invariant (apart_init hinit hreexec hstart)
    (fun _ _ _ h hok hstep => h.step hok hstep) hexec
  exact hapart.cpuOnly hrunning (hguard pre (.accept job) haccept q hexec)

/-- Every probe answers, the first call of an adapter faults, and the GPU takes loads or not. -/
def cudaFaults (offloaded : Bool) : WorkerEnv where
  clock n := n * (1000 * ticksPerMs)
  found _ _ := .available
  executable _ _ := true
  execute n tier _ _ :=
    if n = 0 then ([], { fault := .runtimeError, detail := "decode failed" })
    else ([tier], { text := tier })
  hookReads _ := []
  loads _ := { offloaded := offloaded, plain := true, context := true }
  hexagonCompiledIn := false

def cudaWorker : WorkerConfig where
  modelPath := "model.gguf"
  deviceLadder := ["cuda", "cpu"]

/-- The request that cuda faults on is the only one a worker with a context answers on the cpu. -/
theorem cpu_only_cudaWorker : ∃ p, init (cudaFaults true) cudaWorker = some p ∧
    p.engine.deviceResourcesResident = true ∧ CpuOnly (cudaFaults true) p
      { requestId := "r1", prompt := "first" } := by
  refine ⟨_, rfl, rfl, @cpu_only_of_falls (cudaFaults true) cudaWorker _ _
    [.accept { requestId := "r1", prompt := "first" }] [] _ rfl rfl ?_ (by decide)
    (List.prefix_refl _) rfl rfl⟩
  rintro router - ⟨-, hforce | hrefused⟩
  · cases hforce
  · cases hrefused

/-- The GPU refuses the load of `init`, and the worker that settles on the cpu, with its context,
accepts requests. -/
theorem not_cpu_only : ¬ ∀ (env : WorkerEnv) (config : WorkerConfig) (p q : WorkerProcess)
    (as pre : List Action) (job : InferenceJob), init env config = some p →
      config.reexecAfterDeviceClassFallback = true → pre ++ [.accept job] <+: as →
        Machine.exec (step env) p pre = some q → q.running = true → CpuOnly env q job := by
  intro hall
  have hrun : ∃ p, init (cudaFaults false) cudaWorker = some p ∧ p.standing.tier = "cpu" ∧
      p.engine.deviceResourcesResident = true ∧ p.running = true := ⟨_, rfl, by decide⟩
  obtain ⟨p, hinit, hcpu, hresident, hrunning⟩ := hrun
  have hapart := hall (cudaFaults false) cudaWorker p p
    [.accept { requestId := "r1", prompt := "first" }] [] { requestId := "r1", prompt := "first" }
    hinit rfl (List.prefix_refl _) rfl hrunning
  rw [hapart.accepted hcpu] at hresident
  cases hresident

end WorkerProcess

end ServeInfer.InferenceWorker
