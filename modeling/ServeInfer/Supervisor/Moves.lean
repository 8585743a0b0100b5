import ServeInfer.Supervisor.Books
import Mathlib.Logic.Relation

/-!
# What one step of the supervisor can do

Every step that reads no heartbeat is a chain of moves: something is logged or
counted, the phase changes, a process is forked, reaped, killed or ends, a
connection arrives. What every move keeps, every such step keeps.
-/

namespace ServeInfer.Supervisor

namespace State

variable {cfg : Config} {s s' s₀ : State} {w : ℤ} {pid n : ℕ} {busyMs : Option ℤ} {device : String}

/-- No model cache is among the children. -/
def CacheFree (s : State) : Prop := ∀ c ∈ s.children, c.type ≠ .modelCache

/-- A fork that is no worker's. -/
structure ForkedSingleton (s s' : State) (c : Child) : Prop extends s.Forked s' c where
  type : c.type ≠ .worker
  workers : s'.workerPidById = s.workerPidById
  health : s'.workerHealthById = s.workerHealthById
  trace : s'.trace = s.trace
  alone : c.type = .modelCache → s.CacheFree ∧ c.runNonce = s.runNonce

/-- A worker's fork, with the clock read after it. -/
structure ForkedWorker (s s' : State) (c : Child) (now : ℤ) : Prop extends s.Forked s' c where
  type : c.type = .worker
  ids : 0 ≤ c.workerId ∧ c.workerId < 2 ^ 31
  workers : s'.workerPidById = s.workerPidById.set c.workerId c.pid
  health : s'.workerHealthById = s.workerHealthById.set c.workerId { spawnedAtMs := now }
  trace : s'.trace = s.trace ++ [.spawned c.serial c.workerId now]

/-- A kill that `checkWorkerLiveness` enters for the process of a worker id. -/
structure Killed (limits : LivenessLimits) (s s' : State) (w : ℤ) (pid : ℕ)
    (health : WorkerHealth) (now : ℤ) : Prop where
  listed : s.workerPidById.get? w = some pid
  judged : s.workerHealthById.get? w = some health
  eq : s' = { s with
    workerHealthById := s.workerHealthById.set w { health with lastHeartbeatMs := now, busyMs := 0 }
    trace := s.trace ++ [.killed (s.serialOf pid) w (classifyWorker now health limits) now] }

/-- A connection in which a live worker has written one heartbeat. -/
structure Sent (s : State) (conn : Connection) : Prop where
  text : ∃ w busyMs device, Born s.trace conn.sender w ∧ device ∈ knownBackends ∧
    -2 ^ 63 ≤ busyMs.getD 0 ∧ busyMs.getD 0 < 2 ^ 63 ∧
    conn.text = heartbeatLine w busyMs device ++ ['\n']

/-- One move. -/
inductive Move (cfg : Config) (s s' : State) : Prop
  | aside (h : s.Aside s')
  | enter (phase : Phase) (h : phase ≠ .startCache) (eq : s' = s.enter phase)
  | renonce (runNonce : ℕ) (h : s.CacheFree) (eq : s' = { s with runNonce := runNonce })
  | singleton (c : Child) (h : s.ForkedSingleton s' c)
  | worker (c : Child) (now : ℤ) (h : s.ForkedWorker s' c now)
  | removed (pid : ℕ) (h : s.Removed s' pid)
  | killed (w : ℤ) (pid : ℕ) (health : WorkerHealth) (now : ℤ)
      (h : s.Killed cfg.liveness s' w pid health now)
  | sent (conn : Connection) (h : s.Sent conn) (eq : s' = { s with backlog := s.backlog ++ [conn] })
  | ended (serial status : ℕ) (eq : s' = s.die serial status)

/-- A chain of moves. -/
abbrev Moves (cfg : Config) : State → State → Prop := Relation.ReflTransGen (Move cfg)

@[simp] theorem endChild_serial (serial status : ℕ) (c : Child) :
    (endChild serial status c).serial = c.serial := by
  unfold endChild
  split <;> rfl

@[simp] theorem endChild_pid (serial status : ℕ) (c : Child) :
    (endChild serial status c).pid = c.pid := by
  unfold endChild
  split <;> rfl

@[simp] theorem endChild_type (serial status : ℕ) (c : Child) :
    (endChild serial status c).type = c.type := by
  unfold endChild
  split <;> rfl

@[simp] theorem endChild_workerId (serial status : ℕ) (c : Child) :
    (endChild serial status c).workerId = c.workerId := by
  unfold endChild
  split <;> rfl

@[simp] theorem endChild_runNonce (serial status : ℕ) (c : Child) :
    (endChild serial status c).runNonce = c.runNonce := by
  unfold endChild
  split <;> rfl

theorem children_die (s : State) (serial status : ℕ) :
    (s.die serial status).children = s.children.map (endChild serial status) := rfl

theorem Books.die (h : s.Books) (serial status : ℕ) : (s.die serial status).Books := by
  have hpids : (s.die serial status).pids = s.pids := by
    rw [State.pids, children_die, List.map_map]
    exact List.map_congr_left fun c _ => endChild_pid serial status c
  have hserials : (s.die serial status).children.map Child.serial =
      s.children.map Child.serial := by
    rw [children_die, List.map_map]
    exact List.map_congr_left fun c _ => endChild_serial serial status c
  refine { h with
    pids := hpids ▸ h.pids, serials := hserials ▸ h.serials, numbered := ?_, known := ?_,
    born := ?_ }
  · intro d hd
    obtain ⟨c, hc, rfl⟩ := List.mem_map.mp hd
    rw [endChild_serial]
    exact h.numbered c hc
  · intro pid info hp
    obtain ⟨c, hc, hcp, hinfo⟩ := h.known hp
    refine ⟨endChild serial status c, List.mem_map_of_mem hc, ?_, ?_⟩
    · rw [endChild_pid, hcp]
    · rw [endChild_type, endChild_workerId, hinfo]
  · intro d hd htype
    obtain ⟨c, hc, rfl⟩ := List.mem_map.mp hd
    rw [endChild_serial, endChild_workerId]
    exact h.born hc (by rwa [endChild_type] at htype)

/-- Every move keeps the books. -/
theorem Books.move (h : s.Books) (hm : Move cfg s s') : s'.Books := by
  cases hm with
  | aside ha => exact h.aside ha
  | enter phase _ heq =>
      subst heq
      exact h.of_same rfl rfl rfl rfl (fun _ _ => Iff.rfl) fun _ hc => hc
  | renonce runNonce _ heq =>
      subst heq
      exact h.of_same rfl rfl rfl rfl (fun _ _ => Iff.rfl) fun _ hc => hc
  | singleton c hf => exact h.singleton hf.toForked hf.type hf.workers hf.trace
  | worker c now hf => exact h.worker hf.toForked hf.type hf.ids hf.workers hf.trace
  | removed pid hr => exact h.removed hr
  | killed w pid health now hk =>
      rw [hk.eq]
      exact h.of_same rfl rfl rfl rfl (fun _ _ => born_append (by simp)) fun _ hc => hc
  | sent conn hsent heq =>
      subst heq
      refine { h with sent := ?_ }
      intro c hc
      rcases List.mem_append.mp hc with hc | hc
      · exact h.sent c hc
      · rw [List.mem_singleton.mp hc]
        exact hsent.text
  | ended serial status heq =>
      subst heq
      exact h.die serial status

theorem Moves.aside (h : Moves cfg s₀ s) (ha : s.Aside s') : Moves cfg s₀ s' :=
  h.tail (.aside ha)

theorem Moves.enter (h : Moves cfg s₀ s) {phase : Phase} (hp : phase ≠ .startCache) :
    Moves cfg s₀ (s.enter phase) :=
  h.tail (.enter phase hp rfl)

/-- What every move keeps, a chain of moves keeps. -/
theorem Moves.invariant {P : State → Prop} (h : Moves cfg s s')
    (hP : ∀ t t', P t → Move cfg t t' → P t') (h0 : P s) : P s' := by
  induction h with
  | refl => exact h0
  | tail _ hm ih => exact hP _ _ ih hm

theorem moves_startModelCache (h : Moves cfg s₀ s) (hfree : s.CacheFree) (fork : Fork)
    (runNonce : ℕ) : Moves cfg s₀ (s.startModelCache fork runNonce).2 := by
  have hnonce := h.tail (.renonce runNonce hfree rfl)
  unfold startModelCache
  dsimp only
  obtain hfail | ⟨p, hp, hfork⟩ := forkExec_cases { s with runNonce := runNonce } fork.pid
    { serial := 0, pid := 0, type := .modelCache, runNonce := runNonce }
  · rw [hfail]
    exact hnonce
  · rw [hfork]
    exact hnonce.tail (.singleton _
      { fresh := hp, serial := rfl, phase := rfl, runNonce := rfl, children := rfl, forks := rfl,
        processes := rfl, backlog := rfl, type := by simp, workers := rfl, health := rfl,
        trace := rfl, alone := fun _ => ⟨hfree, rfl⟩ })

theorem moves_startApiServer (h : Moves cfg s₀ s) (fork : Fork) :
    Moves cfg s₀ (s.startApiServer fork).2 := by
  unfold startApiServer
  obtain hfail | ⟨p, hp, hfork⟩ :=
    forkExec_cases s fork.pid { serial := 0, pid := 0, type := .apiServer }
  · rw [hfail]
    exact h
  · rw [hfork]
    exact h.tail (.singleton _
      { fresh := hp, serial := rfl, phase := rfl, runNonce := rfl, children := rfl, forks := rfl,
        processes := rfl, backlog := rfl, type := by simp, workers := rfl, health := rfl,
        trace := rfl, alone := fun hc => by cases hc })

theorem moves_startWorker (h : Moves cfg s₀ s) (hid : 0 ≤ w ∧ w < 2 ^ 31) (fork : Fork) :
    Moves cfg s₀ (s.startWorker w fork).2 := by
  unfold startWorker
  obtain hfail | ⟨p, hp, hfork⟩ := forkExec_cases s fork.pid (s.newWorker w)
  · rw [hfail]
    exact h
  · rw [hfork]
    exact h.tail (.worker _ fork.now
      { fresh := hp, serial := rfl, phase := rfl, runNonce := rfl, children := rfl, forks := rfl,
        processes := rfl, backlog := rfl, type := rfl, ids := hid, workers := rfl, health := rfl,
        trace := rfl })

theorem moves_handleWorkerReassignment (h : Moves cfg s₀ s) {info : ProcessInfo}
    (hid : info.type = .worker → 0 ≤ info.workerId ∧ info.workerId < 2 ^ 31) (status : ℕ)
    (fork : Fork) : Moves cfg s₀ (s.handleWorkerReassignment info status fork).2 := by
  unfold handleWorkerReassignment
  split
  · exact h
  · rename_i hrefused
    split
    · exact h
    · split
      · rename_i i _ _ _ _ _ _
        have hworker : info.type = .worker := by
          by_contra hne
          exact hrefused (.inl hne)
        dsimp only
        generalize s.assignments.modify i _ = assignments
        have hdemoted : s.Aside ({ s with assignments := assignments }.notifyApiServer
            .workerCrashed info.workerId) :=
          (aside_assignments s assignments).trans (aside_notify _ _ _)
        have hstart := moves_startWorker (h.aside hdemoted) (hid hworker) fork
        split
        · rename_i heq
          rw [heq] at hstart
          exact hstart
        · rename_i heq
          rw [heq] at hstart
          exact hstart.aside (aside_notify _ _ _)
      · exact h

theorem moves_restartCrashed (h : Moves cfg s₀ s) {info : ProcessInfo}
    (hid : info.type = .worker → 0 ≤ info.workerId ∧ info.workerId < 2 ^ 31)
    (hfree : info.type = .modelCache → s.CacheFree) (r : Readings) :
    Moves cfg s₀ (s.restartCrashed info r) := by
  unfold restartCrashed
  split
  · rename_i htype
    have hcounted := h.aside ((aside_notify s .workerCrashed info.workerId).trans
      (aside_registerCrash _ info.workerId info r))
    split
    · rename_i heq
      rw [heq] at hcounted
      exact hcounted
    · rename_i heq
      rw [heq] at hcounted
      have hstart := moves_startWorker hcounted (hid htype) r.fork
      split
      · rename_i heq'
        rw [heq'] at hstart
        exact hstart
      · rename_i heq'
        rw [heq'] at hstart
        exact hstart.aside (aside_notify _ _ _)
  · rename_i htype
    have hcount := aside_registerCrash s circuitKeyModelCache info r
    have hcounted := h.aside hcount
    have hfree' : (s.registerCrash circuitKeyModelCache info r).2.CacheFree := fun c hc =>
      hfree htype c (hcount.children ▸ hc)
    split
    · rename_i heq
      rw [heq] at hcounted
      exact hcounted
    · rename_i heq
      rw [heq] at hcounted hfree'
      have hstart := moves_startModelCache hcounted hfree' r.fork r.runNonce
      split
      · rename_i heq'
        rw [heq'] at hstart
        exact hstart
      · rename_i heq'
        rw [heq'] at hstart
        exact hstart.enter (by simp)
  · have hcounted := h.aside (aside_registerCrash s circuitKeyApiServer info r)
    split
    · rename_i heq
      rw [heq] at hcounted
      exact hcounted
    · rename_i heq
      rw [heq] at hcounted
      exact moves_startApiServer hcounted r.fork

end State

end ServeInfer.Supervisor
