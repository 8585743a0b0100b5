import ServeInfer.InferenceWorker.Standings

/-!
# The force-cpu setting

`init` forces the engine onto the cpu where the worker is told to or the tier does
not offload. The hook asks only whether the next tier is called cpu, so the setting
of `init` survives exactly the tier changes that go to the cpu, or to a tier that
offloads in a worker that may use the GPU.
-/

namespace ServeInfer.InferenceWorker

open Device
open Supervisor (knownBackends)

namespace WorkerProcess

variable {env : WorkerEnv} {config : WorkerConfig} {p p' : WorkerProcess} {as : List Action}

/-- The engine's setting is that of `init` for its tier, and a worker that is forced onto the cpu
has never asked for a layer on the GPU. -/
def ForcedAsStarted (env : WorkerEnv) (config : WorkerConfig) (s : Standing) : Prop :=
  s.engine.forceCpu = (config.forceCpu || !env.tierOffloads s.tier) ∧
    (config.forceCpu = true → ∀ layers ∈ s.engine.layersAsked, layers = 0)

instance (s : Standing) : Decidable (ForcedAsStarted env config s) :=
  inferInstanceAs (Decidable (_ ∧ _))

/-- Where the model had to be loaded without the GPU, the worker is forced onto the cpu or the tier
that takes over offloads. -/
def StartsForced (env : WorkerEnv) (config : WorkerConfig) : Prop :=
  ∀ router, selectDevice env config = some router → StartsWithoutGpu env config router →
    config.forceCpu = true ∨ env.tierOffloads (reportStartup env router).ladder.active = true

/-- The next tier is the cpu, or it offloads and the worker may use the GPU. -/
def KeepsSetting (env : WorkerEnv) (config : WorkerConfig) (_ : WorkerProcess) (c : TierChange) :
    Prop :=
  c.next = "cpu" ∨ config.forceCpu = false ∧ env.tierOffloads c.next = true

instance : DecidableRel (KeepsSetting env config) := fun _ _ => inferInstanceAs (Decidable (_ ∨ _))

theorem tierOffloads_cpu (env : WorkerEnv) : env.tierOffloads "cpu" = false := by
  simp [WorkerEnv.tierOffloads]

theorem decides_forced (env : WorkerEnv) (config : WorkerConfig) :
    Decides env (ForcedAsStarted env config) (KeepsSetting env config) := by
  intro p c tier hbefore
  rw [reloaded_eq, ForcedAsStarted, KeepsSetting]
  dsimp only
  by_cases hcpu : c.next = "cpu"
  · refine iff_of_true ⟨?_, fun hforce layers hlayers => ?_⟩ (.inl hcpu)
    · rw [hcpu, tierOffloads_cpu]
      simp
    · obtain hbefore' | hnew := List.mem_append.mp hlayers
      · exact hbefore.2 hforce layers hbefore'
      · simpa [InferEngine.asks, hcpu] using hnew
  · rw [decide_eq_false hcpu]
    cases hforce : config.forceCpu <;> simp [hcpu]

theorem forced_init (hinit : init env config = some p) :
    ForcedAsStarted env config p.standing ↔ StartsForced env config := by
  obtain ⟨router, hselect, hstanding⟩ := standing_init hinit
  have hone : StartsForced env config ↔ (StartsWithoutGpu env config router →
      config.forceCpu = true ∨ env.tierOffloads (reportStartup env router).ladder.active = true) := by
    rw [StartsForced, hselect]
    simp only [Option.some.injEq, forall_eq']
  have hlayers : config.forceCpu = true → ∀ layers ∈ (startEngine env config router).layersAsked,
      layers = 0 := by
    intro hforce layers hmem
    simpa [startEngine, startForce, InferEngine.asks, hforce] using hmem
  rw [hone, hstanding, ForcedAsStarted, and_iff_left hlayers]
  show startForce env config router = _ ↔ _
  by_cases hmissed : StartsWithoutGpu env config router
  · have hcuda : env.tierOffloads "cuda" = true := by simp [WorkerEnv.tierOffloads]
    rw [if_pos hmissed, startForce, hmissed.1, hcuda]
    cases config.forceCpu <;> simp [hmissed]
  · rw [if_neg hmissed]
    exact iff_of_true rfl fun h => absurd h hmissed

/-- The setting of `init` lasts exactly in the runs in which every tier change goes to the cpu or, in
a worker that may use the GPU, to a tier that offloads. -/
theorem forced_as_started_iff (hinit : init env config = some p)
    (hexec : Machine.exec (step env) p as = some p') :
    (∀ s ∈ p'.states, ForcedAsStarted env config s) ↔ StartsForced env config ∧
      Machine.Guarded (step env) (HookGuarded env (KeepsSetting env config)) p as := by
  rw [(decides_forced env config).run hinit hexec, forced_init hinit]

/-- Every probe answers, and the first call of an adapter faults. -/
def firstFaults : WorkerEnv where
  clock n := n * (1000 * ticksPerMs)
  found _ _ := .available
  executable _ _ := true
  execute n tier _ _ :=
    if n = 0 then ([], { fault := .runtimeError, detail := "decode failed" })
    else ([tier], { text := tier })
  hookReads _ := []
  loads _ := { offloaded := true, plain := true, context := true }
  hexagonCompiledIn := false

/-- A worker with `EDGE_FORCE_CPU`, and these tiers. -/
def forcedCpu (tiers : List String) : WorkerConfig where
  modelPath := "model.gguf"
  forceCpu := true
  deviceLadder := tiers

def oneRequest : List Action := [.accept { requestId := "r1", prompt := "first" }]

/-- A fall from accelerate to the cpu keeps the setting. -/
theorem forced_as_started_accelerate : ∃ p p',
    init firstFaults (forcedCpu ["accelerate", "cpu"]) = some p ∧
    Machine.exec (step firstFaults) p oneRequest = some p' ∧
      ∀ s ∈ p'.states, ForcedAsStarted firstFaults (forcedCpu ["accelerate", "cpu"]) s := by
  refine ⟨_, _, rfl, rfl,
    (@forced_as_started_iff firstFaults (forcedCpu ["accelerate", "cpu"]) _ _ oneRequest rfl rfl).mpr
      ⟨?_, by decide⟩⟩
  exact fun _ _ _ => .inl rfl

/-- The cpu faults, and the worker asks for all of the model's layers on the GPU to serve remote. -/
theorem not_forced_as_started : ¬ ∀ (env : WorkerEnv) (config : WorkerConfig)
    (p p' : WorkerProcess) (as : List Action), init env config = some p →
      Machine.exec (step env) p as = some p' → ∀ s ∈ p'.states, ForcedAsStarted env config s := by
  intro hall
  have hrun : ∃ p p', init firstFaults (forcedCpu ["cpu", "remote"]) = some p ∧
      Machine.exec (step firstFaults) p oneRequest = some p' ∧
        p'.engine.layersAsked = [0, 99] := ⟨_, _, rfl, rfl, by decide⟩
  obtain ⟨p, p', hinit, hexec, hasked⟩ := hrun
  have hzero := (hall _ _ _ _ _ hinit hexec p'.standing
    (List.mem_append_right _ (List.mem_singleton_self _))).2 rfl 99
  rw [standing, hasked] at hzero
  exact absurd (hzero (by decide)) (by decide)

end WorkerProcess

end ServeInfer.InferenceWorker
