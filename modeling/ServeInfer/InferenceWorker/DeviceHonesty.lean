import ServeInfer.InferenceWorker.Standings

/-!
# The device a worker names

The engine that loads the model on the cpu when the GPU refuses it says so to nobody
but `init`. After `init` the hook takes the retry for success, so a worker names cuda
truthfully exactly as long as no load for cuda is refused by the GPU. The cpu is
always named truthfully.
-/

namespace ServeInfer.InferenceWorker

open Device
open Supervisor (knownBackends)

/-- The tier is cuda only where the engine offloads, and cpu only where it does not. -/
def Standing.Honest (s : Standing) : Prop :=
  (s.tier = "cuda" → s.engine.isUsingGPU = true) ∧ (s.tier = "cpu" → s.engine.isUsingGPU = false)

instance (s : Standing) : Decidable s.Honest := inferInstanceAs (Decidable (_ ∧ _))

namespace WorkerProcess

variable {env : WorkerEnv} {config : WorkerConfig} {p p' : WorkerProcess} {as : List Action}

/-- A result frame names the tier on which the process stands after the request. -/
theorem device_of_result (p : WorkerProcess) (job : InferenceJob)
    {requestId text device : Bytes} {reason : Option Bytes}
    (h : Frame.result requestId text device reason ∈ (p.worker.answer env.router job).1) :
    device = bytes (p.serve env job).standing.tier := by
  have hstanding : (p.serve env job).standing.tier =
      (p.worker.routed env.router job.prompt job.stream).2.activeDevice := by
    rw [standing, WorkerProcess.serve, worker_answer]
    rfl
  rw [hstanding]
  cases hstream : job.stream with
  | true =>
      rw [Worker.answer_stream hstream, List.mem_append, List.mem_singleton] at h
      obtain hmem | heq := h
      · obtain ⟨token, -, htoken⟩ := List.mem_map.mp hmem
        cases htoken
      · cases heq
        rfl
  | false =>
      rw [Worker.answer_buffered hstream, List.mem_singleton] at h
      cases h
      rfl

/-- The ladder leaves cuda where `init` has loaded the model without the GPU. -/
def StartsHonest (env : WorkerEnv) (config : WorkerConfig) : Prop :=
  ∀ router, selectDevice env config = some router → StartsWithoutGpu env config router →
    (reportStartup env router).ladder.active ≠ "cuda"

/-- A load for cuda is not refused by the GPU. -/
def OffloadsForCuda (env : WorkerEnv) (p : WorkerProcess) (c : TierChange) : Prop :=
  c.next = "cuda" → (env.loads p.loads).offloaded = true

instance : DecidableRel (OffloadsForCuda env) := fun _ _ => inferInstanceAs (Decidable (_ → _))

theorem decides_honest (env : WorkerEnv) : Decides env Standing.Honest (OffloadsForCuda env) := by
  intro p c tier _
  rw [reloaded_eq, Standing.Honest, OffloadsForCuda]
  simp only [InferEngine.isUsingGPU, LoadOutcome.offloads]
  by_cases hcpu : c.next = "cpu"
  · simp [hcpu]
  · simp [hcpu]

/-- Does the engine offload when `init` is through? -/
theorem isUsingGPU_start (env : WorkerEnv) (config : WorkerConfig) (router : Router) :
    (startEngine env config router).isUsingGPU =
      (!config.forceCpu && env.tierOffloads router.ladder.active && (env.loads 0).offloaded) := by
  simp [startEngine, InferEngine.isUsingGPU, LoadOutcome.offloads, startForce]

theorem honest_init (hinit : init env config = some p) :
    p.standing.Honest ↔ StartsHonest env config := by
  obtain ⟨router, hselect, hstanding⟩ := standing_init hinit
  have hone : StartsHonest env config ↔ (StartsWithoutGpu env config router →
      (reportStartup env router).ladder.active ≠ "cuda") := by
    rw [StartsHonest, hselect]
    simp only [Option.some.injEq, forall_eq']
  rw [hone, hstanding, Standing.Honest, isUsingGPU_start]
  by_cases hmissed : StartsWithoutGpu env config router
  · have hoff : (!config.forceCpu && env.tierOffloads router.ladder.active &&
        (env.loads 0).offloaded) = false := by
      obtain ⟨-, hforce | hrefused⟩ := hmissed
      · simp [hforce]
      · simp [hrefused]
    rw [if_pos hmissed, hoff]
    simp [hmissed]
  · rw [if_neg hmissed]
    dsimp only
    refine iff_of_true ⟨fun hcuda => ?_, fun hcpu => ?_⟩ fun h => absurd h hmissed
    · rw [StartsWithoutGpu, not_and, not_or, Bool.not_eq_true, Bool.not_eq_false] at hmissed
      obtain ⟨hforce, hoffloaded⟩ := hmissed hcuda
      simp [WorkerEnv.tierOffloads, hcuda, hforce, hoffloaded]
    · simp [WorkerEnv.tierOffloads, hcpu]

/-- A worker names its device truthfully exactly in the runs in which no load for cuda is refused by
the GPU, that of `init` apart where the ladder then leaves cuda; its result frames name the tier
on which it then stands. -/
theorem device_honest_iff (hinit : init env config = some p)
    (hexec : Machine.exec (step env) p as = some p') :
    ((∀ s ∈ p'.states, s.Honest) ↔ StartsHonest env config ∧
      Machine.Guarded (step env) (HookGuarded env (OffloadsForCuda env)) p as) ∧
    ∀ job requestId text device reason,
      Frame.result requestId text device reason ∈ (p'.worker.answer env.router job).1 →
        device = bytes (p'.serve env job).standing.tier := by
  refine ⟨?_, fun job _ _ _ _ h => device_of_result p' job h⟩
  rw [(decides_honest env).run hinit hexec, honest_init hinit]

/-- Every probe answers, cuda's adapter faults at the first call and every other call succeeds; the
GPU refuses the load with this number. -/
def refusesLoad (number : ℕ) : WorkerEnv where
  clock n := n * (1000 * ticksPerMs)
  found _ _ := .available
  executable _ _ := true
  execute n tier _ _ :=
    if n = 0 then ([], { fault := .runtimeError, detail := "decode failed" })
    else ([tier], { text := tier })
  hookReads _ := []
  loads n := { offloaded := n ≠ number, plain := true, context := true }
  hexagonCompiledIn := false

/-- A worker that falls from cuda to vulkan and comes back after two seconds. -/
def twoGpus : WorkerConfig where
  modelPath := "model.gguf"
  deviceLadder := ["cuda", "vulkan", "cpu"]
  deviceQuarantineMs := 2000

def twoRequests : List Action :=
  [.accept { requestId := "r1", prompt := "first" }, .accept { requestId := "r2", prompt := "second" }]

/-- Where the GPU takes every load, the worker that comes back to cuda offloads there. -/
theorem device_honest_twoGpus : ∃ p p', init (refusesLoad 3) twoGpus = some p ∧
    Machine.exec (step (refusesLoad 3)) p twoRequests = some p' ∧ ∀ s ∈ p'.states, s.Honest := by
  refine ⟨_, _, rfl, rfl,
    (@device_honest_iff (refusesLoad 3) twoGpus _ _ twoRequests rfl rfl).1.mpr ⟨?_, by decide⟩⟩
  rintro router - ⟨-, hforce | hrefused⟩
  · cases hforce
  · cases hrefused

/-- The GPU refuses the load with which the worker comes back to cuda, and the worker names cuda all
the same while its engine is on the cpu. -/
theorem not_device_honest : ¬ ∀ (env : WorkerEnv) (config : WorkerConfig) (p p' : WorkerProcess)
    (as : List Action), init env config = some p → Machine.exec (step env) p as = some p' →
      ∀ s ∈ p'.states, s.Honest := by
  intro hall
  have hrun : ∃ p p', init (refusesLoad 2) twoGpus = some p ∧
      Machine.exec (step (refusesLoad 2)) p twoRequests = some p' ∧
        p'.states.all (fun s => s.Honest) = false := ⟨_, _, rfl, rfl, by decide⟩
  obtain ⟨p, p', hinit, hexec, hbad⟩ := hrun
  have hgood : p'.states.all (fun s => s.Honest) = true :=
    List.all_eq_true.mpr fun s hs => decide_eq_true (hall _ _ _ _ _ hinit hexec s hs)
  rw [hgood] at hbad
  cases hbad

end WorkerProcess

end ServeInfer.InferenceWorker
