import ServeInfer.ApiServer.WorkerCountSource
import ServeInfer.Supervisor.ConfigText
import ServeInfer.Supervisor.Loop

/-!
# One pool on both sides

The api-server's pool has an entry for every worker that the supervisor's start loop
starts, and no other, if the published configuration can be read. It cannot be read where
one of its strings has a control character that the escapers leave alone; the ceiling
then stands in for the count.
-/

namespace ServeInfer.ApiServer

open Supervisor (ModelConfig Clean writeModelConfig)

variable {M : Charset} {stringify : Json → JsString} {readFile : JsString → FileRead}
  {path : JsString} {workerCount : ℤ} {c : ModelConfig} {cfg : Supervisor.Config}

/-- What the two processes have in common: the file is read, its count is taken, and the pool that
is made of it has the ids that the start loop goes through. -/
structure PoolAgrees (M : Charset) (c : ModelConfig) (cfg : Supervisor.Config)
    (decision : WorkerCountDecision) : Prop where
  valid : ∃ v, Json.parse (Utf8.decode (M.encode (writeModelConfig c))) = some v
  count : decision.workerCount = some (c.effectiveWorkerCount : ℚ)
  source : decision.source = .modelConfig
  entries : ∀ (o : Options) (now : ℤ), decision.workerCount = some (o.workerCount : ℚ) →
    (WorkerPool.new o now).workers.keys = (List.range cfg.effectiveWorkerCount).map Nat.cast
  started : ∀ (o : Options) (now : ℤ), decision.workerCount = some (o.workerCount : ℚ) →
    ∀ (s : Supervisor.State) (fork : Supervisor.Fork) (runNonce next : ℕ),
      s.phase = .startWorkers next →
        (Supervisor.State.startNext cfg s fork runNonce = some (s.enter .sleeping) ↔
          (WorkerPool.new o now).workers.has next = false)

theorem keys_new (o : Options) (now : ℤ) :
    (WorkerPool.new o now).workers.keys = (List.range o.workerCount).map Nat.cast := by
  have hfold : ∀ n : ℕ, ((List.range n).foldl (fun workers (i : ℕ) =>
      workers.set (i : ℤ) ({ startedAt := now } : WorkerEntry))
        (∅ : OrderedMap ℤ WorkerEntry)).keys = (List.range n).map Nat.cast := by
    intro n
    induction n with
    | zero => rfl
    | succ n ih =>
        have hnew : (n : ℤ) ∉ (List.range n).map (Nat.cast : ℕ → ℤ) := by simp
        rw [List.range_succ, List.foldl_append, List.foldl_cons, List.foldl_nil,
          OrderedMap.keys_set_of_notMem _ (ih ▸ hnew), ih, List.map_append]
        rfl
  exact hfold o.workerCount

theorem has_new_iff (o : Options) (now : ℤ) (next : ℕ) :
    (WorkerPool.new o now).workers.has next = true ↔ next < o.workerCount := by
  rw [OrderedMap.has_iff, keys_new]
  simp

/-- The loop of `startWorkers` ends at the count. -/
theorem startNext_sleeping_iff {s : Supervisor.State} {next : ℕ} (hs : s.phase = .startWorkers next)
    (fork : Supervisor.Fork) (runNonce : ℕ) :
    Supervisor.State.startNext cfg s fork runNonce = some (s.enter .sleeping) ↔
      ¬ next < cfg.effectiveWorkerCount := by
  rw [Supervisor.State.startNext, hs]
  dsimp only
  split
  · rename_i hlt
    refine iff_of_false (fun heq => ?_) (not_not_intro hlt)
    split at heq
    · have hphase := congrArg Supervisor.State.phase (Option.some.inj heq)
      cases hphase
    · have hphase := congrArg Supervisor.State.phase (Option.some.inj heq)
      cases hphase
  · rename_i hlt
    exact iff_of_true rfl hlt

/-- At least one worker is started, and no more than configured. -/
theorem effective_of_place? {modelPath shmName : String} {pollIntervalMs : ℤ}
    {hardware : Hardware.HardwareReport} {plan : Hardware.CapacityPlan} (hcount : 1 ≤ workerCount)
    (h : ModelConfig.place? modelPath shmName workerCount pollIntervalMs hardware plan = some c) :
    1 ≤ c.effectiveWorkerCount ∧ c.effectiveWorkerCount ≤ workerCount ∧
      c.workerCount = workerCount ∧ c.plan = plan ∧
        c.assignments = Hardware.assignWorkers plan c.effectiveWorkerCount := by
  obtain ⟨effective, heffective, rfl⟩ := Option.map_eq_some_iff.mp h
  rw [Hardware.placeableWorkerCount, if_neg (by omega)] at heffective
  obtain ⟨placeable, -, rfl⟩ := Option.map_eq_some_iff.mp heffective
  refine ⟨?_, ?_, rfl, rfl, rfl⟩
  · dsimp only
    split_ifs <;> omega
  · dsimp only
    split_ifs <;> omega

/-- The processes agree on the pool exactly when no string of the configuration has a control
character other than the line feed, the carriage return and the tab. -/
theorem pool_agreement_iff (M : Charset) (stringify : Json → JsString)
    (readFile : JsString → FileRead) (modelPath shmName : String) (pollIntervalMs : ℤ)
    (hardware : Hardware.HardwareReport) (plan : Hardware.CapacityPlan) (hlow : 1 ≤ workerCount)
    (hhigh : workerCount ≤ 1024)
    (hplace : ModelConfig.place? modelPath shmName workerCount pollIntervalMs hardware plan =
      some c)
    (hcfg : (cfg.effectiveWorkerCount : ℤ) = c.effectiveWorkerCount) (hpath : path ≠ [])
    (hfile : readFile path = .data (M.encode (writeModelConfig c))) :
    PoolAgrees M c cfg (resolveWorkerCount stringify readFile (some workerCount) (some path)) ↔
      ∀ s ∈ c.texts, Clean s := by
  obtain ⟨hpos, hle, -, hplan, hassignments⟩ := effective_of_place? hlow hplace
  constructor
  · rintro ⟨⟨v, hv⟩, -⟩ s hs ch hch hraw
    have hmem := Supervisor.mem_writeModelConfig hs hch hraw
    have hnone := Supervisor.parse_of_raw (M := M) hmem hraw
    rw [Charset.units, hv] at hnone
    cases hnone
  · intro hclean
    have hreasons : ∀ a ∈ c.assignments, Clean a.reason := by
      intro a ha
      rw [hassignments] at ha
      obtain ⟨workerId, -, rfl⟩ := List.mem_map.mp ha
      rw [← hplan]
      exact Supervisor.clean_assignWorker (hclean _ (by simp [ModelConfig.texts])) workerId
    obtain ⟨members, hspeaks, hget⟩ := Supervisor.exists_speaks_config (M := M) hclean hreasons
    have hnewline : M.units ['\n'] = [0x0A] :=
      Charset.Stands.units (Charset.stands_char (by decide))
    have hparse :
        Json.parse (Utf8.decode (M.encode (writeModelConfig c))) = some (.obj members) := by
      rw [Supervisor.writeModelConfig_eq]
      apply hspeaks.parse
      · rw [hnewline]
        decide
      · rw [hnewline]
        exact Json.notNext_cons (by decide) []
    obtain ⟨hcount, hsource⟩ : (resolveWorkerCount stringify readFile (some workerCount)
        (some path)).workerCount = some (c.effectiveWorkerCount : ℚ) ∧ (resolveWorkerCount stringify
          readFile (some workerCount) (some path)).source = .modelConfig :=
      resolveWorkerCount_published (by omega) hpos hle hhigh hpath hfile hparse hget
    have hoptions : ∀ o : Options,
        (resolveWorkerCount stringify readFile (some workerCount) (some path)).workerCount =
          some (o.workerCount : ℚ) → o.workerCount = cfg.effectiveWorkerCount := by
      intro o ho
      rw [hcount, ← hcfg] at ho
      exact_mod_cast (Option.some.inj ho).symm
    refine ⟨⟨_, hparse⟩, hcount, hsource, ?_, ?_⟩
    · intro o now ho
      rw [keys_new, hoptions o ho]
    · intro o now ho s fork runNonce next hs
      rw [startNext_sleeping_iff hs, ← hoptions o ho, ← has_new_iff o now, Bool.not_eq_true]

/-- Two workers of which one fits, and a path. -/
def publishedConfig (modelPath : String) : ModelConfig where
  modelPath := modelPath
  shmName := "/edge"
  workerCount := 2
  pollIntervalMs := 1000
  hardware := {}
  plan := { cpuWorkerCapacity := 1, gpuReason := "none" }
  effectiveWorkerCount := 1
  assignments := [⟨0, .cpu, 0, "no gpu slot: none"⟩]

/-- What the supervisor starts with it. -/
def publishedStart : Supervisor.Config where
  workerCount := 2
  effectiveWorkerCount := 1
  effective_le := by decide
  workerCount_lt := by decide
  assignments := [⟨0, .cpu, 0, "no gpu slot: none"⟩]

theorem place?_published (modelPath : String) :
    ModelConfig.place? modelPath "/edge" 2 1000 {} { cpuWorkerCapacity := 1, gpuReason := "none" } =
      some (publishedConfig modelPath) := by
  have hassign : Hardware.assignWorkers { cpuWorkerCapacity := 1, gpuReason := "none" } 1 =
      [⟨0, .cpu, 0, "no gpu slot: none"⟩] := by
    decide
  have hcount : Hardware.placeableWorkerCount
      { cpuWorkerCapacity := 1, gpuReason := "none" } 2 = some 1 := by
    decide
  rw [ModelConfig.place?, hcount, Option.map_some, hassign]
  rfl

/-- A path without control characters. -/
theorem pool_agreement_closed :
    PoolAgrees .utf8 (publishedConfig "/models/a.gguf") publishedStart
      (resolveWorkerCount (fun _ => [])
        (fun _ => .data (Charset.utf8.encode (writeModelConfig (publishedConfig "/models/a.gguf"))))
        (some (2 : ℤ)) (some [0x61])) :=
  (pool_agreement_iff .utf8 _ _ _ _ _ _ _ (by decide) (by decide)
    (place?_published "/models/a.gguf") (by decide) (by decide) rfl).mpr (by decide)

/-- With a control character in the path the pool has two entries, and one worker is started. -/
theorem not_pool_agreement :
    ¬ (∀ (readFile : JsString → FileRead) (modelPath : String),
      readFile [0x61] = .data (Charset.utf8.encode (writeModelConfig (publishedConfig modelPath))) →
        PoolAgrees .utf8 (publishedConfig modelPath) publishedStart
          (resolveWorkerCount (fun _ => []) readFile (some (2 : ℤ)) (some [0x61]))) := by
  intro h
  obtain ⟨readFile, hfile⟩ : ∃ readFile : JsString → FileRead, readFile [0x61] =
      .data (Charset.utf8.encode (writeModelConfig (publishedConfig "/models/\x01.gguf"))) :=
    ⟨fun _ => _, rfl⟩
  have hclaim := h readFile "/models/\x01.gguf" hfile
  have hraw : Supervisor.RawChar '\x01' := by decide
  have hpath : '\x01' ∈ (publishedConfig "/models/\x01.gguf").modelPath.toList := by decide
  have hmem : '\x01' ∈ writeModelConfig (publishedConfig "/models/\x01.gguf") :=
    Supervisor.mem_writeModelConfig (List.mem_cons_self) hpath hraw
  have hparse := Supervisor.parse_of_raw (M := .utf8) hmem hraw
  have htwo : (resolveWorkerCount (fun _ => []) readFile (some (2 : ℤ)) (some [0x61])).workerCount =
      some ((2 : ℤ) : ℚ) :=
    (resolveWorkerCount_unreadable (by decide) (by decide) hfile hparse).1
  have hone := hclaim.count
  rw [htwo] at hone
  exact absurd (Option.some.inj hone) (by norm_num [publishedConfig])

end ServeInfer.ApiServer
