import ServeInfer.Supervisor.Coverage

/-!
# What the api-server is told of a death

A worker's death is announced once, and its replacement behind it. The planned exit of
a cuda worker is announced by the reassignment, which leaves no trace of a crash. Where
the fork of that replacement fails, the ordinary crash path takes over from the
beginning: the death is announced, logged and counted as if nothing had been told.
-/

namespace ServeInfer.Supervisor

namespace State

/-- A worker's death that `handleCrash` handles as abnormal while the supervisor is running. -/
structure Died (s : State) (pid status : ℕ) (info : ProcessInfo) : Prop where
  entry : s.processesByPid.get? pid = some info
  worker : info.type = .worker
  abnormal : exitCode? status ≠ some 0
  running : s.running = true

/-- The exit with which a cuda worker asks for its reassignment. -/
def plannedExit (s : State) (info : ProcessInfo) (status : ℕ) : Bool :=
  0 ≤ info.workerId ∧ exitCode? status = some reassignCpu ∧
    (s.assignmentFor info.workerId).map WorkerAssignment.backend = some .cuda

/-- The fork gives the supervisor a child. -/
def forks? (s : State) (fork : Fork) : Bool := fork.pid.any fun pid => pid ∉ s.pids

end State

/-- The events that tell of one worker's death: one crash notice, and a restart notice behind it
exactly where a replacement was forked. -/
structure Announces (w : ℤ) (es : List Event) : Prop where
  once : es.count (.notified .workerCrashed w) = 1
  restarted : .notified .workerRestarted w ∈ es ↔ ∃ serial now, .spawned serial w now ∈ es
  after : ∀ pre post, es = pre ++ .notified .workerRestarted w :: post →
    .notified .workerCrashed w ∈ pre

/-- What is told and booked of a death from one state to the other. -/
structure Disciplined (s s' : State) (info : ProcessInfo) (status : ℕ) : Prop where
  announced : ∃ es, s'.trace = s.trace ++ es ∧ Announces info.workerId es
  planned : s.plannedExit info status = true →
    s'.crashLog = s.crashLog ∧ s'.circuitBreaker = s.circuitBreaker

namespace State

/-- The deaths that the action handles are announced as they should be. -/
def Announced (s : State) : Action → Prop
  | .reap pid r => ∀ c status info, s.children.find? (fun c => c.pid = pid) = some c →
      c.status = some status → (s.unlist pid).Died pid status info →
        Disciplined (s.unlist pid) ((s.unlist pid).handleCrash pid status r) info status
  | _ => True

/-- The replacement of a cuda worker with a planned exit is forked at the first attempt. -/
def ReplacesPlanned (s : State) : Action → Prop
  | .reap pid r => ∀ c status info, s.children.find? (fun c => c.pid = pid) = some c →
      c.status = some status → (s.unlist pid).Died pid status info →
        (s.unlist pid).plannedExit info status = true →
          (s.unlist pid).forks? r.reassignFork = true
  | _ => True

variable {s s' : State} {info : ProcessInfo} {w : ℤ} {pid status : ℕ} {fork : Fork} {r : Readings}
  {es : List Event}

/-- A death with no replacement. -/
theorem announces_alone (w : ℤ) : Announces w [.notified .workerCrashed w] where
  once := by simp
  restarted := by simp
  after := by
    intro pre post h
    have hmem : Event.notified .workerRestarted w ∈ [Event.notified .workerCrashed w] :=
      h ▸ List.mem_append_right pre List.mem_cons_self
    simp at hmem

/-- A death whose replacement was forked. -/
theorem announces_replaced (w : ℤ) (serial : ℕ) (now : ℤ) :
    Announces w [.notified .workerCrashed w, .spawned serial w now,
      .notified .workerRestarted w] where
  once := by simp
  restarted := by simp
  after := by
    intro pre post h
    cases pre with
    | nil => simp at h
    | cons e pre =>
        obtain ⟨rfl, -⟩ := List.cons.inj h
        exact List.mem_cons_self

/-- A worker announced twice. -/
theorem not_announces_twice (w : ℤ) (es : List Event) :
    ¬ Announces w (.notified .workerCrashed w :: .notified .workerCrashed w :: es) := by
  intro h
  have honce := h.once
  simp only [List.count_cons_self] at honce
  omega

theorem startWorker_told (s : State) (w : ℤ) (fork : Fork) :
    s.forks? fork = false ∧ s.startWorker w fork = (false, s) ∨
      ∃ s', s.forks? fork = true ∧ s.startWorker w fork = (true, s') ∧
        s'.trace = s.trace ++ [.spawned s.forks w fork.now] ∧ s'.crashLog = s.crashLog ∧
        s'.circuitBreaker = s.circuitBreaker := by
  unfold startWorker forks? forkExec
  cases fork.pid with
  | none => exact .inl ⟨rfl, rfl⟩
  | some pid =>
      by_cases hpid : pid ∈ s.pids
      · simp [hpid]
      · simp [hpid]

/-- The state in which the planned exit of a cuda worker is announced. -/
def demoted (s : State) (w : ℤ) (i : ℕ) : State :=
  let reason := "device fault on cuda: released model and context, re-exec is the " ++
    "only way to give back the cuda primary context"
  { s with assignments := s.assignments.modify i (demoteToCpu · reason) }.notifyApiServer
    .workerCrashed w

/-- Only planned exits are reassigned. -/
theorem handleWorkerReassignment_eq (ht : info.type = .worker) (hrunning : s.running = true) :
    s.plannedExit info status = false ∧
        s.handleWorkerReassignment info status fork = (false, s) ∨
      ∃ i, s.plannedExit info status = true ∧ s.handleWorkerReassignment info status fork =
        match (s.demoted info.workerId i).startWorker info.workerId fork with
        | (false, s) => (false, s)
        | (true, s) => (true, s.notifyApiServer .workerRestarted info.workerId) := by
  have hfind : s.assignmentFor info.workerId =
      (s.assignments.findIdx? fun assignment => assignment.workerId = info.workerId).bind
        fun i => s.assignments[i]? := List.find?_eq_bind_findIdx?_getElem?
  unfold handleWorkerReassignment plannedExit
  rw [hfind]
  by_cases hexit : info.workerId < 0 ∨ exitCode? status ≠ some reassignCpu
  · refine .inl ⟨?_, if_pos ?_⟩
    · rw [decide_eq_false_iff_not]
      rintro ⟨hid, hcode, -⟩
      obtain hneg | hother := hexit
      · omega
      · exact hother hcode
    · obtain hneg | hother := hexit
      · exact .inr (.inl hneg)
      · exact .inr (.inr (.inl hother))
  · obtain ⟨hid, hcode⟩ := not_or.mp hexit
    rw [if_neg (by simp [ht, hrunning, not_lt.mp hid, not_not.mp hcode])]
    cases hidx : s.assignments.findIdx? fun assignment => assignment.workerId = info.workerId with
    | none => exact .inl ⟨by simp, rfl⟩
    | some i =>
        rw [Option.bind_some]
        cases hget : s.assignments[i]? with
        | none => exact .inl ⟨by simp, by simp [hget]⟩
        | some assignment =>
            obtain ⟨workerId, backend, gpuIndex, reason⟩ := assignment
            cases backend with
            | cpu => exact .inl ⟨by simp, by simp [hget]⟩
            | cuda =>
                refine .inr ⟨i, ?_, ?_⟩
                · simpa using ⟨not_lt.mp hid, not_not.mp hcode⟩
                · simp only [hget]
                  rfl

/-- What `handleCrash` tells of a worker that it goes on to restart. -/
theorem trace_restartCrashed (ht : info.type = .worker) :
    ∃ es, (s.restartCrashed info r).trace = s.trace ++ .notified .workerCrashed info.workerId :: es ∧
      Announces info.workerId (.notified .workerCrashed info.workerId :: es) := by
  rw [restartCrashed_worker ht]
  have htold : (s.askBreaker info r).2.trace =
      s.trace ++ [.notified .workerCrashed info.workerId] := rfl
  cases hask : s.askBreaker info r with
  | mk opened s₁ =>
      rw [hask] at htold
      cases opened with
      | true => exact ⟨[], htold, announces_alone _⟩
      | false =>
          dsimp only at htold ⊢
          obtain ⟨-, hstart⟩ | ⟨s₂, -, hstart, htrace, -, -⟩ :=
            startWorker_told s₁ info.workerId r.fork
          · rw [hstart]
            exact ⟨[], htold, announces_alone _⟩
          · rw [hstart]
            refine ⟨_, ?_, announces_replaced info.workerId s₁.forks r.fork.now⟩
            simp only [notifyApiServer, log, htrace, htold, List.append_assoc, List.cons_append,
              List.nil_append]

theorem handleCrash_died (h : s.Died pid status info) :
    s.handleCrash pid status r =
      match (s.forget info).handleWorkerReassignment info status r.reassignFork with
      | (true, s) => s
      | (false, s) =>
          if (s.writeCrashLog info status r).running = false then s.writeCrashLog info status r
          else (s.writeCrashLog info status r).restartCrashed info r := by
  rw [handleCrash, h.entry]
  dsimp only
  exact if_neg h.abnormal

/-- What the tables have forgotten is told and booked nowhere. -/
theorem forget_rest (s : State) (info : ProcessInfo) (status : ℕ) (fork : Fork) :
    (s.forget info).trace = s.trace ∧ (s.forget info).crashLog = s.crashLog ∧
      (s.forget info).circuitBreaker = s.circuitBreaker ∧
      (s.forget info).plannedExit info status = s.plannedExit info status ∧
      (s.forget info).forks? fork = s.forks? fork := by
  unfold forget
  dsimp only
  split <;> exact ⟨rfl, rfl, rfl, rfl, rfl⟩

/-- An ordinary crash of a worker. -/
theorem restart_logged (ht : info.type = .worker) (hrunning : s.running = true) (status : ℕ) :
    ∃ es, (if (s.writeCrashLog info status r).running = false then s.writeCrashLog info status r
        else (s.writeCrashLog info status r).restartCrashed info r).trace =
          s.trace ++ .notified .workerCrashed info.workerId :: es ∧
      Announces info.workerId (.notified .workerCrashed info.workerId :: es) := by
  have hlog : (s.writeCrashLog info status r).running = true ∧
      (s.writeCrashLog info status r).trace = s.trace := by
    unfold writeCrashLog
    split <;> exact ⟨hrunning, rfl⟩
  rw [if_neg (by simp [hlog.1]), ← hlog.2]
  exact trace_restartCrashed ht

/-- A death is announced as it should be unless it is the planned exit of a cuda worker whose
replacement is not forked at the first attempt. -/
theorem disciplined_iff (h : s.Died pid status info) :
    Disciplined s (s.handleCrash pid status r) info status ↔
      (s.plannedExit info status = true → s.forks? r.reassignFork = true) := by
  obtain ⟨htrace, hcrashLog, hbreaker, hplanned, hforks⟩ :=
    forget_rest s info status r.reassignFork
  have hrunning : (s.forget info).running = true := (running_forget s info).trans h.running
  rw [handleCrash_died h, ← hplanned, ← hforks]
  obtain ⟨hnot, hre⟩ | ⟨i, hexit, hre⟩ :=
    @handleWorkerReassignment_eq _ _ status r.reassignFork h.worker hrunning
  · obtain ⟨es, hes, hannounces⟩ := restart_logged (r := r) h.worker hrunning status
    rw [htrace] at hes
    rw [hre, hnot]
    refine iff_of_true ⟨⟨_, hes, hannounces⟩, ?_⟩ (fun hexit => absurd hexit Bool.false_ne_true)
    intro hexit
    rw [← hplanned, hnot] at hexit
    cases hexit
  · rw [hexit]
    have htold : ((s.forget info).demoted info.workerId i).trace =
        s.trace ++ [.notified .workerCrashed info.workerId] := by
      rw [← htrace]
      rfl
    obtain ⟨hfork, hstart⟩ | ⟨s₁, hfork, hstart, hspawned, hlog, hbroken⟩ :=
      startWorker_told ((s.forget info).demoted info.workerId i) info.workerId r.reassignFork
    · -- the crash path begins anew where the death has been announced already
      obtain ⟨es, hes, -⟩ := restart_logged (r := r) (s := (s.forget info).demoted info.workerId i)
        h.worker hrunning status
      rw [hre, hstart]
      refine iff_of_false ?_ ?_
      · rintro ⟨⟨es', hes', hannounces⟩, -⟩
        rw [hes, htold, List.append_assoc] at hes'
        obtain rfl := List.append_cancel_left hes'
        exact not_announces_twice _ _ hannounces
      · intro hforks
        exact absurd ((hforks rfl).symm.trans hfork) (by simp)
    · rw [hre, hstart]
      refine iff_of_true ⟨⟨_, ?_, announces_replaced info.workerId
        ((s.forget info).demoted info.workerId i).forks r.reassignFork.now⟩, ?_⟩ fun _ => hfork
      · simp only [notifyApiServer, log, hspawned, htold, List.append_assoc, List.cons_append,
          List.nil_append]
      · intro _
        exact ⟨hlog.trans hcrashLog, hbroken.trans hbreaker⟩

theorem announced_iff (s : State) (a : Action) : s.Announced a ↔ s.ReplacesPlanned a := by
  cases a with
  | reap pid r =>
      constructor
      · intro h c status info hc hstatus hdied
        exact (disciplined_iff hdied).mp (h c status info hc hstatus hdied)
      · intro h c status info hc hstatus hdied
        exact (disciplined_iff hdied).mpr (h c status info hc hstatus hdied)
  | _ => exact Iff.rfl

end State

/-- In every run of the supervisor, every death that it handles is announced as it should be exactly
if every planned exit of a cuda worker is replaced at the first attempt. -/
theorem notices_disciplined_iff (cfg : Config) (as : List Action) :
    Machine.Guarded (step cfg) State.Announced (init cfg) as ↔
      Machine.Guarded (step cfg) State.ReplacesPlanned (init cfg) as := by
  constructor
  · intro hall pre a hpre s hs
    exact (s.announced_iff a).mp (hall pre a hpre s hs)
  · intro hall pre a hpre s hs
    exact (s.announced_iff a).mpr (hall pre a hpre s hs)

/-- One worker, on cuda. -/
def oneCudaWorker : Config :=
  { oneWorker with assignments := [⟨0, .cuda, 0, "gpu slot 0"⟩] }

/-- The worker asks for its reassignment, the fork of its replacement fails, and its death is told
twice. -/
theorem not_notices_disciplined :
    ¬ ∀ (cfg : Config) (as : List Action),
      Machine.Guarded (step cfg) State.Announced (init cfg) as := by
  intro hall
  have hrun : ∃ s, Machine.exec (step oneCudaWorker) (init oneCudaWorker)
      ((reapedRun (reassignCpu * 256)).take 7) = some s ∧
      ¬ s.ReplacesPlanned (.reap 12 { fork := { pid := some 13 } }) := by
    refine ⟨_, rfl, ?_⟩
    intro h
    have hforks := h _ (reassignCpu * 256) { pid := 12, type := .worker, workerId := 0 } rfl rfl
      ⟨rfl, rfl, by decide, rfl⟩ (by decide)
    cases hforks
  obtain ⟨s, hexec, hfails⟩ := hrun
  have htold := hall oneCudaWorker (reapedRun (reassignCpu * 256))
    ((reapedRun (reassignCpu * 256)).take 7) _ ⟨[.reaped], rfl⟩ s hexec
  exact hfails ((s.announced_iff _).mp htold)

end ServeInfer.Supervisor
