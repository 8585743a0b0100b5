import ServeInfer.Device.Narrowing
import ServeInfer.Device.TierChanges
import ServeInfer.InferenceWorker.Answers
import ServeInfer.InferenceWorker.Engine
import ServeInfer.Supervisor.Types

/-!
# A worker's process

`Worker` with its engine: `init` settles on a tier and loads the model for it, every
request goes through the router, and the fallback hook loads the model anew for the
tier that takes over. A reload succeeds or not by what it loads alone, so the hook's
answers are known before the engine is.
-/

namespace ServeInfer.InferenceWorker

open Device
open Supervisor (knownBackends reassignCpu)

/-- `WorkerConfig`, as far as the device depends on it; the model's path is the one after the shared
memory has been attached. -/
structure WorkerConfig where
  modelPath : String
  forceCpu : Bool := false
  gpuLayers : ℤ := 99
  deviceLadder : List String := ["cuda", "npu", "ane", "cpu", "remote"]
  deviceQuarantineMs : ℤ := 60000
  deviceProbeIntervalMs : ℤ := 5000
  assignedBackend : String := ""
  reexecAfterDeviceClassFallback : Bool := true
  deriving DecidableEq, Repr

/-- What a worker meets: the clock and the probes, the adapters and the log lines of the hook by the
number of the call, the library by the number of the load, and whether Hexagon is compiled in. -/
structure WorkerEnv where
  clock : ℕ → ℤ
  found : ℕ → String → ProbeResult
  executable : ℕ → String → Bool
  execute : ℕ → String → String → Bool → List String × BackendExecution
  hookReads : ℕ → List ℕ
  loads : ℕ → LoadOutcome
  hexagonCompiledIn : Bool

namespace WorkerEnv

/-- The router's surroundings: the hook answers whether its reload has succeeded, and the first load
is that of `init`. -/
def router (env : WorkerEnv) : RouterEnv where
  clock := env.clock
  probe n := probeDevice (env.found n)
  executable := env.executable
  execute := env.execute
  onFallback n _ next := (env.loads (n + 1)).succeeds (next = "cpu")
  hookReads := env.hookReads

/-- `tierOffloads`. -/
def tierOffloads (env : WorkerEnv) (tier : String) : Bool :=
  tier = "cuda" || (tier = "npu" && env.hexagonCompiledIn)

theorem probes_router (env : WorkerEnv) : env.router.Probes (· ∈ knownBackends) :=
  fun _ _ h => mem_of_probeDevice h

end WorkerEnv

/-- A tier, and the engine as it stood when the worker had settled there. -/
structure Standing where
  tier : String
  engine : InferEngine
  deriving DecidableEq, Repr

/-- A worker's process: the loads of its engine, whether it accepts requests, the code it will exit
with, and where it has stood after `init` and after each tier change. -/
structure WorkerProcess where
  config : WorkerConfig
  worker : Worker
  engine : InferEngine
  loads : ℕ := 1
  running : Bool := true
  exitCode : ℕ := 0
  visited : List Standing
  deriving DecidableEq, Repr

/-- `tierIsLlamaServed`. -/
def tierIsLlamaServed (tier : String) : Bool :=
  tier ∈ ["cpu", "cuda", "rocm", "vulkan", "metal", "accelerate"]

namespace WorkerProcess

variable (env : WorkerEnv)

/-- `selectDevice`, up to the line it logs: `toJson` looks at the ladder's probes and the clock once
more there. -/
def selectDevice (config : WorkerConfig) : Option Router :=
  let order := ladderFrom config.deviceLadder (config.assignedBackend = "cpu") config.forceCpu
  let router := Router.ofOrder order config.deviceQuarantineMs config.deviceProbeIntervalMs
  let router := ((router.registerBackend "npu").registerBackend "ane").registerBackend "remote"
  match router.select env.router with
  | (false, _) => none
  | (true, router) => some router

/-- The fault that `init` reports to the ladder itself, before there is a hook. -/
def reportStartup (router : Router) : Router :=
  router.settle (router.ladder.reportFault env.router.toEnv .unavailable
    "gpu model load failed at startup").2 false

/-- The rest of `init`, from where the engine is up. -/
def install (router : Router) : Router :=
  { (knownBackends.filter tierIsLlamaServed).foldl Router.registerBackend router with
    hookSet := true }

/-- `init`, of a worker whose shared memory and socket can be had. -/
def init (config : WorkerConfig) : Option WorkerProcess :=
  match selectDevice env config with
  | none => none
  | some router =>
      let engine : InferEngine :=
        { gpuLayers := config.gpuLayers
          forceCpu := config.forceCpu || !env.tierOffloads router.ladder.active }
      match engine.init config.modelPath (env.loads 0) with
      | (false, _) => none
      | (true, engine) =>
          let router :=
            install (if router.ladder.active = "cuda" && !engine.isUsingGPU then
              reportStartup env router else router)
          some
            { config := config
              worker := { router := router, activeDevice := router.ladder.active }
              engine := engine
              visited := [⟨router.ladder.active, engine⟩] }

/-- `onTierChanged`; the ladder's names never change, so it may be the ladder before the request. -/
def onTierChanged (p : WorkerProcess) (previous next : String) : Bool × WorkerProcess :=
  let ladder := p.worker.router.ladder
  let recovering := ladder.indexOf next < ladder.indexOf previous
  -- Asked before the reload: this is about what the process already touched.
  let action := p.engine.deviceFallbackAction previous next p.config.reexecAfterDeviceClassFallback
  let contextStaysResident := p.engine.requiresProcessRestartForCpuOnly previous next
  let (reloaded, engine) := p.engine.reloadOn (next = "cpu") (env.loads p.loads)
  let p := { p with
    worker := { p.worker with activeDevice := next }
    engine := engine
    loads := p.loads + 1
    visited := p.visited ++ [⟨next, engine⟩] }
  if recovering then (reloaded, p)
  else if !reloaded then (false, p)
  else if contextStaysResident then
    if action = .reexecAsCpu then (true, { p with exitCode := reassignCpu, running := false })
    else (true, p)
  else (true, p)

/-- The process after a call of the hook. -/
def changed (p : WorkerProcess) (c : TierChange) : WorkerProcess :=
  (p.onTierChanged env c.previous c.next).2

/-- The calls of the hook while a request is answered. -/
def changes (p : WorkerProcess) (job : InferenceJob) : List TierChange :=
  (tierChanges (p.worker.answer env.router job).2.router.log).drop
    (tierChanges p.worker.router.log).length

/-- A request is answered: the hook has its calls, and the router its way. -/
def serve (p : WorkerProcess) (job : InferenceJob) : WorkerProcess :=
  { (p.changes env job).foldl (changed env) p with
    worker := (p.worker.answer env.router job).2 }

/-- What happens to a running worker: a request is accepted, or it is told to stop. -/
inductive Action
  | accept (job : InferenceJob)
  | requestStop
  deriving DecidableEq, Repr

/-- A turn of `run`'s loop; a worker that is told to stop accepts no more. -/
def step (p : WorkerProcess) : Action → Option WorkerProcess
  | .accept job => if p.running then some (p.serve env job) else none
  | .requestStop => some { p with running := false }

variable {env} {config : WorkerConfig} {p p' : WorkerProcess} {job : InferenceJob}
  {previous next tier last : String} {c : TierChange} {cs : List TierChange} {n : ℕ} {a : Action}

/-- The tier that is active, and the engine. -/
def standing (p : WorkerProcess) : Standing := ⟨p.worker.router.ladder.active, p.engine⟩

/-- The setting with which `init` loads the model. -/
def startForce (env : WorkerEnv) (config : WorkerConfig) (router : Router) : Bool :=
  config.forceCpu || !env.tierOffloads router.ladder.active

/-- The engine after the load of `init`. -/
def startEngine (env : WorkerEnv) (config : WorkerConfig) (router : Router) : InferEngine where
  gpuLayers := config.gpuLayers
  forceCpu := startForce env config router
  gpuOk := (env.loads 0).offloads (startForce env config router)
  deviceInitialized := !startForce env config router
  loaded := true
  layersAsked := InferEngine.asks { gpuLayers := config.gpuLayers, forceCpu := false }
    (env.loads 0) (startForce env config router)

/-- The router with which `init` ends. -/
def startRouter (env : WorkerEnv) (config : WorkerConfig) (router : Router) : Router :=
  install (if router.ladder.active = "cuda" &&
      !(env.loads 0).offloads (startForce env config router) then
    reportStartup env router else router)

theorem init_spec (h : init env config = some p) :
    ∃ router, selectDevice env config = some router ∧
      p = { config := config
            worker :=
              { router := startRouter env config router
                activeDevice := (startRouter env config router).ladder.active }
            engine := startEngine env config router
            visited := [⟨(startRouter env config router).ladder.active,
              startEngine env config router⟩] } := by
  unfold init at h
  split at h
  · cases h
  · rename_i router hselect
    refine ⟨router, hselect, ?_⟩
    dsimp only at h
    split at h
    · cases h
    · rename_i engine hload
      obtain rfl := Option.some.inj h
      unfold InferEngine.init at hload
      split at hload
      · cases hload
      · rw [InferEngine.loadModel_eq _ _ fun _ => rfl, Prod.mk.injEq] at hload
        obtain ⟨hup, rfl⟩ := hload
        rw [hup]
        rfl

/-- The test by which the hook tells a recovery from a fallback. -/
def recovering (p : WorkerProcess) (previous next : String) : Bool :=
  p.worker.router.ladder.indexOf next < p.worker.router.ladder.indexOf previous

/-- The hook tells the process to exit. -/
def exits (env : WorkerEnv) (p : WorkerProcess) (previous next : String) : Bool :=
  !p.recovering previous next && (env.loads p.loads).succeeds (next = "cpu") &&
    (p.config.reexecAfterDeviceClassFallback &&
      p.engine.requiresProcessRestartForCpuOnly previous next)

/-- The engine after the hook's reload for a tier. -/
def reloaded (env : WorkerEnv) (p : WorkerProcess) (next : String) : InferEngine :=
  (p.engine.reloadOn (next = "cpu") (env.loads p.loads)).2

/-- What the hook does: its answer is whether the reload succeeds, and it may end the process. -/
theorem onTierChanged_eq (env : WorkerEnv) (p : WorkerProcess) (previous next : String) :
    p.onTierChanged env previous next =
      ((env.loads p.loads).succeeds (next = "cpu"),
        { p with
          worker := { p.worker with activeDevice := next }
          engine := p.reloaded env next
          loads := p.loads + 1
          visited := p.visited ++ [⟨next, p.reloaded env next⟩]
          exitCode := if p.exits env previous next then reassignCpu else p.exitCode
          running := p.running && !p.exits env previous next }) := by
  have hanswer : (p.engine.reloadOn (next = "cpu") (env.loads p.loads)).1 =
      (env.loads p.loads).succeeds (next = "cpu") := by
    rw [InferEngine.reloadOn_eq]
  unfold onTierChanged exits recovering reloaded InferEngine.deviceFallbackAction
  generalize p.engine.reloadOn (next = "cpu") (env.loads p.loads) = out at hanswer ⊢
  obtain ⟨answer, engine⟩ := out
  dsimp only at hanswer ⊢
  rw [← hanswer]
  by_cases hrecovering : p.worker.router.ladder.indexOf next < p.worker.router.ladder.indexOf previous
  · simp [hrecovering]
  · cases answer with
    | false => simp [hrecovering]
    | true =>
        cases p.config.reexecAfterDeviceClassFallback <;>
          cases p.engine.requiresProcessRestartForCpuOnly previous next <;> simp [hrecovering]

/-- The process as it is between requests. -/
structure Settled (env : WorkerEnv) (p : WorkerProcess) : Prop where
  hookSet : p.worker.router.hookSet = true
  manned : p.worker.router.ladder.Manned (· ∈ knownBackends)
  loads : p.loads = p.worker.router.hookCalls + 1
  device : p.worker.activeDevice = p.worker.router.ladder.active
  visited : p.visited.getLast? = some p.standing

theorem visited_changed (env : WorkerEnv) (p : WorkerProcess) (c : TierChange) :
    (p.changed env c).visited = p.visited ++ [⟨c.next, p.reloaded env c.next⟩] := by
  rw [changed, onTierChanged_eq]

theorem engine_changed (env : WorkerEnv) (p : WorkerProcess) (c : TierChange) :
    (p.changed env c).engine = p.reloaded env c.next := by
  rw [changed, onTierChanged_eq]

theorem reloaded_eq (env : WorkerEnv) (p : WorkerProcess) (next : String) :
    p.reloaded env next =
      { p.engine with
        forceCpu := next = "cpu"
        gpuOk := (env.loads p.loads).offloads (next = "cpu")
        deviceInitialized := p.engine.deviceInitialized || next ≠ "cpu"
        loaded := (env.loads p.loads).succeeds (next = "cpu")
        layersAsked := p.engine.layersAsked ++ p.engine.asks (env.loads p.loads) (next = "cpu") } := by
  rw [reloaded, InferEngine.reloadOn_eq]
  simp

/-- What the hook never touches, and that it loads once. -/
structure Along (p p' : WorkerProcess) (n : ℕ) : Prop where
  config : p'.config = p.config
  router : p'.worker.router = p.worker.router
  loads : p'.loads = p.loads + n

theorem along_changed (env : WorkerEnv) (p : WorkerProcess) (c : TierChange) :
    Along p (p.changed env c) 1 := by
  rw [changed, onTierChanged_eq]
  exact ⟨rfl, rfl, rfl⟩

theorem along_foldl (env : WorkerEnv) (p : WorkerProcess) (cs : List TierChange) :
    Along p (cs.foldl (changed env) p) cs.length := by
  induction cs generalizing p with
  | nil => exact ⟨rfl, rfl, rfl⟩
  | cons c cs ih =>
      have hfirst := along_changed env p c
      have hrest := ih (p.changed env c)
      refine ⟨hrest.config.trans hfirst.config, hrest.router.trans hfirst.router, ?_⟩
      rw [List.foldl_cons, hrest.loads, hfirst.loads, List.length_cons, Nat.add_assoc,
        Nat.add_comm 1]

/-- The calls of a request as a run of the hook. -/
theorem exec_changes (env : WorkerEnv) (p : WorkerProcess) (cs : List TierChange) :
    Machine.exec (fun p c => some (changed env p c)) p cs = some (cs.foldl (changed env) p) := by
  induction cs generalizing p with
  | nil => rfl
  | cons c cs ih => exact ih (p.changed env c)

/-- After its last call the process stands on the tier to which the calls have led. -/
theorem visited_foldl (hled : Led env.router n tier cs last)
    (h : p.visited.getLast? = some ⟨tier, p.engine⟩) :
    (cs.foldl (changed env) p).visited.getLast? =
      some ⟨last, (cs.foldl (changed env) p).engine⟩ := by
  induction hled generalizing p with
  | stay n tier => exact h
  | change rest ih =>
      refine ih ?_
      rw [visited_changed, engine_changed, List.getLast?_concat]

/-- However it is answered, a request goes through the router once. -/
theorem worker_answer (env : RouterEnv) (w : Worker) (job : InferenceJob) :
    (w.answer env job).2 = (w.routed env job.prompt job.stream).2 := by
  unfold Worker.answer
  cases job.stream with
  | true => rfl
  | false => exact w.generateWithFallback_snd env job.prompt

theorem nonempty_of_known (h : tier ∈ knownBackends) : tier.isEmpty = false := by
  have hall : ∀ tier ∈ knownBackends, tier.isEmpty = false := by decide
  exact hall tier h

theorem Settled.told (h : p.Settled env) (job : InferenceJob) :
    Router.Told env.router (· ∈ knownBackends) p.worker.router
      (p.worker.answer env.router job).2.router := by
  rw [worker_answer]
  exact Router.told_route env.probes_router h.hookSet (nonempty_of_known h.manned.active)

/-- The calls of a request are the hook's, from the next one on, and lead to the router's tier. -/
theorem Settled.changes (h : p.Settled env) (job : InferenceJob) :
    Led env.router p.worker.router.hookCalls p.worker.router.ladder.active (p.changes env job)
        (p.worker.answer env.router job).2.router.ladder.active ∧
      (p.worker.answer env.router job).2.router.hookCalls =
        p.worker.router.hookCalls + (p.changes env job).length := by
  obtain ⟨cs, hlog, hled, hcalls⟩ := (h.told job).changes
  have hchanges : p.changes env job = cs := by
    rw [WorkerProcess.changes, hlog, List.drop_left]
  rw [hchanges]
  exact ⟨hled, hcalls⟩

/-- The answers that the router went by are those of the hook. -/
theorem Settled.answers (h : p.Settled env) (job : InferenceJob) {pre post : List TierChange}
    (heq : p.changes env job = pre ++ c :: post) :
    c.answer = ((pre.foldl (changed env) p).onTierChanged env c.previous c.next).1 := by
  obtain ⟨hled, -⟩ := h.changes job
  rw [heq] at hled
  obtain ⟨mid, -, hrest⟩ := hled.split
  obtain ⟨-, hanswer, -⟩ := hrest.head
  rw [hanswer, onTierChanged_eq, (along_foldl env p pre).loads, h.loads]
  show (env.loads _).succeeds _ = _
  rw [Nat.add_right_comm]

theorem Settled.serve (h : p.Settled env) (job : InferenceJob) : (p.serve env job).Settled env := by
  obtain ⟨hled, hcalls⟩ := h.changes job
  have htold := h.told job
  have halong := along_foldl env p (p.changes env job)
  refine ⟨htold.hookSet.trans h.hookSet, htold.manned h.manned, ?_, ?_, visited_foldl hled h.visited⟩
  · show ((p.changes env job).foldl (changed env) p).loads = _
    rw [halong.loads, h.loads]
    show _ = (p.worker.answer env.router job).2.router.hookCalls + 1
    rw [hcalls]
    omega
  · show (p.worker.answer env.router job).2.activeDevice = _
    rw [WorkerProcess.serve, worker_answer]
    rfl

theorem Settled.step (h : p.Settled env) (hstep : p.step env a = some p') : p'.Settled env := by
  cases a with
  | accept job =>
      obtain ⟨-, heq⟩ := Option.ite_none_right_eq_some.mp hstep
      obtain rfl := Option.some.inj heq
      exact h.serve job
  | requestStop =>
      obtain rfl := Option.some.inj hstep
      exact ⟨h.hookSet, h.manned, h.loads, h.device, h.visited⟩

theorem manned_select {P : String → Prop} {env : RouterEnv} {r r' : Router} (hprobes : env.Probes P)
    (h : r.ladder.Vetted P) (hselect : r.select env = (true, r')) : r'.ladder.Manned P := by
  unfold Router.select at hselect
  rcases Ladder.select_cases env.toEnv r.ladder with
    ⟨j, tier, s, -, hscan, heq⟩ | ⟨s, -, hscan, heq⟩
  · rw [heq] at hselect
    obtain rfl := (Prod.mk.inj hselect).2
    have hs : s.Vetted P := h.looks hprobes hscan.looks
    have hfound : P tier.name := hs.found hscan
    have hactive : (s.activate j tier).active = tier.name := by rw [Ladder.activate_eq]
    have hup : (s.activate j tier).Manned P :=
      ⟨hs.of_tiers (Ladder.sameTiers_activate s j tier).tiers fun _ => hactive ▸ hfound,
        hactive ▸ hfound⟩
    exact hup.looks hprobes (Ladder.looks_tierState _ _ _)
  · rw [heq] at hselect
    cases (Prod.mk.inj hselect).1

/-- An adapter that is registered empties the caches, and does nothing else to the ladder. -/
theorem vetted_registerBackend {P : String → Prop} {r : Router} (h : r.ladder.Vetted P)
    (name : String) : (r.registerBackend name).ladder.Vetted P := by
  refine h.of_invalid rfl ?_
  intro tier htier
  obtain ⟨tier, -, rfl⟩ := List.mem_map.mp htier
  rfl

theorem manned_register {P : String → Prop} {names : List String} {r : Router}
    (h : r.ladder.Manned P) : (names.foldl Router.registerBackend r).ladder.Manned P := by
  induction names generalizing r with
  | nil => exact h
  | cons name names ih =>
      exact ih ⟨vetted_registerBackend h.vetted name, h.active⟩

theorem hookCalls_register {names : List String} {r : Router} :
    (names.foldl Router.registerBackend r).hookCalls = r.hookCalls := by
  induction names generalizing r with
  | nil => rfl
  | cons name names ih => exact ih

theorem hookCalls_select {env : RouterEnv} {r : Router} : (r.select env).2.hookCalls = r.hookCalls := by
  unfold Router.select
  split <;> rfl

theorem selectDevice_spec {router : Router} (h : selectDevice env config = some router) :
    router.ladder.Manned (· ∈ knownBackends) ∧ router.hookCalls = 0 := by
  unfold selectDevice at h
  dsimp only at h
  split at h
  · cases h
  · rename_i router' heq
    obtain rfl := Option.some.inj h
    constructor
    · refine manned_select env.probes_router ?_ heq
      apply vetted_registerBackend
      apply vetted_registerBackend
      apply vetted_registerBackend
      exact Ladder.vetted_ofOrder _ _ _
    · have hcalls := congrArg (fun out => out.2.hookCalls) heq
      dsimp only at hcalls
      rw [← hcalls, hookCalls_select]
      rfl

theorem manned_start {router : Router} (h : selectDevice env config = some router) :
    (startRouter env config router).ladder.Manned (· ∈ knownBackends) := by
  have hselected := (selectDevice_spec h).1
  unfold startRouter install
  apply manned_register
  split
  · exact hselected.turn env.probes_router (Ladder.turn_reportFault _ _ _ _) nofun
  · exact hselected

theorem hookCalls_start {router : Router} (h : selectDevice env config = some router) :
    (startRouter env config router).hookCalls = 0 := by
  unfold startRouter install
  dsimp only
  rw [hookCalls_register]
  split
  · exact (selectDevice_spec h).2
  · exact (selectDevice_spec h).2

theorem settled_init (h : init env config = some p) : p.Settled env := by
  obtain ⟨router, hselect, rfl⟩ := init_spec h
  refine ⟨rfl, manned_start hselect, ?_, rfl, rfl⟩
  show 1 = (startRouter env config router).hookCalls + 1
  rw [hookCalls_start hselect]

theorem settled_of_exec {as : List Action} (hinit : init env config = some p)
    (h : Machine.exec (step env) p as = some p') : p'.Settled env :=
  Machine.exec_invariant (settled_init hinit) (fun _ _ _ h hstep => h.step hstep) h

end WorkerProcess

end ServeInfer.InferenceWorker
