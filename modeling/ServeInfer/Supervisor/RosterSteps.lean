import ServeInfer.Supervisor.Roster
import ServeInfer.Supervisor.Survivors

/-!
# The deeds of every step

Each of the supervisor's methods as a chain of deeds. A step starts a worker
only for the id whose process it has reaped, or for the one that its loop has
come to and finds without a process.
-/

namespace ServeInfer.Supervisor

/-- What the supervisor enters about a child. -/
abbrev Child.info (c : Child) : ProcessInfo := ⟨c.pid, c.type, c.workerId⟩

/-- The phases of `start`. -/
def Phase.Boot : Phase → Prop
  | .startCache | .startReady | .startApi | .startWorkers _ => True
  | _ => False

namespace State

variable {cfg : Config} {gone : ℕ → Prop} {only : ℤ → Prop} {s s' s'' s₀ : State} {w : ℤ} {pid : ℕ}

theorem Apart.of_same (hc : s'.children = s.children) (hp : s'.processesByPid = s.processesByPid)
    (hw : s'.workerPidById = s.workerPidById) (ha : s'.assignments = s.assignments)
    (ht : s'.trace = s.trace) (hr : s'.running = true → s.running = true) : s.Apart s' :=
  ⟨hc, hp, hw, ha, ⟨[], by rw [ht, List.append_nil], nofun⟩, hr⟩

theorem Apart.refl (s : State) : s.Apart s := .of_same rfl rfl rfl rfl rfl id

theorem Apart.trans (h : s.Apart s') (h' : s'.Apart s'') : s.Apart s'' where
  children := h'.children.trans h.children
  processes := h'.processes.trans h.processes
  workers := h'.workers.trans h.workers
  assignments := h'.assignments.trans h.assignments
  trace := by
    obtain ⟨es, hes, hsoft⟩ := h.trace
    obtain ⟨es', hes', hsoft'⟩ := h'.trace
    refine ⟨es ++ es', ?_, ?_⟩
    · rw [hes', hes, List.append_assoc]
    · intro e he
      exact (List.mem_append.mp he).elim (hsoft e) (hsoft' e)
  running hr := h.running (h'.running hr)

/-- One soft entry more. -/
theorem apart_log (s : State) {e : Event} (he : e.Soft) : s.Apart (s.log e) :=
  ⟨rfl, rfl, rfl, rfl, ⟨[e], rfl, fun _ hmem => List.mem_singleton.mp hmem ▸ he⟩, id⟩

theorem apart_notify (s : State) (notice : Notice) (w : ℤ) :
    s.Apart (s.notifyApiServer notice w) :=
  apart_log s trivial

theorem apart_enter (s : State) (phase : Phase) : s.Apart (s.enter phase) :=
  .of_same rfl rfl rfl rfl rfl id

theorem apart_writeCrashLog (s : State) (info : ProcessInfo) (status : ℕ) (r : Readings) :
    s.Apart (s.writeCrashLog info status r) := by
  unfold writeCrashLog
  split
  · exact .of_same rfl rfl rfl rfl rfl id
  · exact .refl s

theorem apart_registerCrash (s : State) (key : ℤ) (info : ProcessInfo) (r : Readings) :
    s.Apart (s.registerCrash key info r).2 :=
  .of_same rfl rfl rfl rfl rfl id

theorem Deeds.apart (h : Deeds cfg gone only s₀ s) (ha : s.Apart s') : Deeds cfg gone only s₀ s' :=
  h.tail (.aside ha)

/-- What every deed keeps, a chain of deeds keeps. -/
theorem Deeds.invariant {P : State → Prop} (h : Deeds cfg gone only s s')
    (hP : ∀ t t', P t → Deed cfg gone only t t' → P t') (h0 : P s) : P s' := by
  induction h with
  | refl => exact h0
  | tail _ hd ih => exact hP _ _ ih hd

theorem deeds_startModelCache (h : Deeds cfg gone only s₀ s) (fork : Fork) (runNonce : ℕ) :
    Deeds cfg gone only s₀ (s.startModelCache fork runNonce).2 := by
  have hnonce : Deeds cfg gone only s₀ { s with runNonce := runNonce } :=
    h.apart (.of_same rfl rfl rfl rfl rfl id)
  unfold startModelCache
  dsimp only
  obtain hfail | ⟨p, hp, hfork⟩ := forkExec_cases { s with runNonce := runNonce } fork.pid
    { serial := 0, pid := 0, type := .modelCache, runNonce := runNonce }
  · rw [hfail]
    exact hnonce
  · rw [hfork]
    exact hnonce.tail (.singleton _
      { fresh := hp, children := rfl, processes := rfl, assignments := rfl, running := rfl } nofun
      rfl rfl)

theorem deeds_startApiServer (h : Deeds cfg gone only s₀ s) (fork : Fork) :
    Deeds cfg gone only s₀ (s.startApiServer fork).2 := by
  unfold startApiServer
  obtain hfail | ⟨p, hp, hfork⟩ :=
    forkExec_cases s fork.pid { serial := 0, pid := 0, type := .apiServer }
  · rw [hfail]
    exact h
  · rw [hfork]
    exact h.tail (.singleton _
      { fresh := hp, children := rfl, processes := rfl, assignments := rfl, running := rfl } nofun
      rfl rfl)

/-- A worker is not started, or it is for the id. -/
theorem startWorker_cases (hv : s.Vacant w) (hid : 0 ≤ w ∧ w < cfg.effectiveWorkerCount)
    (fork : Fork) : s.startWorker w fork = (false, s) ∨
      ∃ c s', s.startWorker w fork = (true, s') ∧ c.workerId = w ∧
        s.Staffed cfg s' c fork.now := by
  unfold startWorker
  obtain hfail | ⟨p, hp, hfork⟩ := forkExec_cases s fork.pid (s.newWorker w)
  · rw [hfail]
    exact .inl rfl
  · rw [hfork]
    exact .inr ⟨_, _, rfl, rfl,
      { fresh := hp, children := rfl, processes := rfl, assignments := rfl, running := rfl,
        type := rfl, vacant := hv, ids := hid, backend := rfl, workers := rfl, trace := rfl }⟩

theorem deeds_startWorker (h : Deeds cfg gone only s₀ s) (hv : s.Vacant w)
    (hid : 0 ≤ w ∧ w < cfg.effectiveWorkerCount) (hw : only w) (fork : Fork) :
    Deeds cfg gone only s₀ (s.startWorker w fork).2 := by
  obtain hfail | ⟨c, s', hstart, rfl, hf⟩ := startWorker_cases hv hid fork
  · rw [hfail]
    exact h
  · rw [hstart]
    exact h.tail (.staffed c fork.now hf hw)

/-- What a step needs to start a worker for a process it has reaped. -/
structure Owed (cfg : Config) (only : ℤ → Prop) (s : State) (info : ProcessInfo) : Prop where
  vacant : s.Vacant info.workerId
  ids : 0 ≤ info.workerId ∧ info.workerId < cfg.effectiveWorkerCount
  only : only info.workerId

theorem Owed.apart {info : ProcessInfo} (h : Owed cfg only s info) (ha : s.Apart s') :
    Owed cfg only s' info := by
  refine ⟨?_, h.ids, h.only⟩
  unfold Vacant
  rw [ha.workers]
  exact h.vacant

/-- The reassignment ends with a new worker, or leaves the id without one. -/
theorem deeds_handleWorkerReassignment (h : Deeds cfg gone only s₀ s) {info : ProcessInfo}
    (hinfo : info.type = .worker → Owed cfg only s info) (status : ℕ) (fork : Fork) :
    Deeds cfg gone only s₀ (s.handleWorkerReassignment info status fork).2 ∧
      ((s.handleWorkerReassignment info status fork).1 = false → info.type = .worker →
        Owed cfg only (s.handleWorkerReassignment info status fork).2 info) := by
  unfold handleWorkerReassignment
  split
  · exact ⟨h, fun _ => hinfo⟩
  · rename_i hgo
    split
    · exact ⟨h, fun _ => hinfo⟩
    · rename_i i hfind
      split
      · rename_i id gpu why hget
        have howed : Owed cfg only s info := hinfo (by
          by_contra hne
          exact hgo (.inl hne))
        have hid : id = info.workerId := by
          obtain ⟨hlt, hp, -⟩ := List.findIdx?_eq_some_iff_getElem.mp hfind
          rw [List.getElem?_eq_getElem hlt, Option.some.injEq] at hget
          rw [hget] at hp
          exact of_decide_eq_true hp
        subst hid
        dsimp only
        generalize ("device fault on cuda: released model and context, re-exec is the " ++
          "only way to give back the cuda primary context") = reason
        have hdemoted : Deeds cfg gone only s₀
            { s with assignments := s.assignments.modify i (demoteToCpu · reason) } :=
          h.tail (.demoted i _ reason hget rfl howed.vacant rfl)
        have hnotified := hdemoted.apart (apart_notify _ .workerCrashed info.workerId)
        have howed' : Owed cfg only ({ s with
            assignments := s.assignments.modify i (demoteToCpu · reason) }.notifyApiServer
              .workerCrashed info.workerId) info := ⟨howed.vacant, howed.ids, howed.only⟩
        have hstart := deeds_startWorker hnotified howed'.vacant howed.ids howed.only fork
        obtain hfail | ⟨c, s', hnew, -, -⟩ := startWorker_cases howed'.vacant howed.ids fork
        · rw [hfail]
          exact ⟨hnotified, fun _ _ => howed'⟩
        · rw [hnew] at hstart ⊢
          exact ⟨hstart.apart (apart_notify _ _ _), fun hfalse => by cases hfalse⟩
      · exact ⟨h, fun _ => hinfo⟩

theorem deeds_restartCrashed (h : Deeds cfg gone only s₀ s) {info : ProcessInfo}
    (hinfo : info.type = .worker → Owed cfg only s info) (r : Readings) :
    Deeds cfg gone only s₀ (s.restartCrashed info r) := by
  unfold restartCrashed
  split
  · rename_i htype
    have hcount := (apart_notify s .workerCrashed info.workerId).trans
      (apart_registerCrash _ info.workerId info r)
    have hcounted := h.apart hcount
    have howed := (hinfo htype).apart hcount
    split
    · rename_i heq
      rw [heq] at hcounted
      exact hcounted
    · rename_i heq
      rw [heq] at hcounted howed
      have hstart := deeds_startWorker hcounted howed.vacant howed.ids howed.only r.fork
      split
      · rename_i heq'
        rw [heq'] at hstart
        exact hstart
      · rename_i heq'
        rw [heq'] at hstart
        exact hstart.apart (apart_notify _ _ _)
  · have hcounted := h.apart (apart_registerCrash s circuitKeyModelCache info r)
    split
    · rename_i heq
      rw [heq] at hcounted
      exact hcounted
    · rename_i heq
      rw [heq] at hcounted
      have hstart := deeds_startModelCache hcounted r.fork r.runNonce
      split
      · rename_i heq'
        rw [heq'] at hstart
        exact hstart
      · rename_i heq'
        rw [heq'] at hstart
        exact hstart.apart (apart_enter _ _)
  · have hcounted := h.apart (apart_registerCrash s circuitKeyApiServer info r)
    split
    · rename_i heq
      rw [heq] at hcounted
      exact hcounted
    · rename_i heq
      rw [heq] at hcounted
      exact deeds_startApiServer hcounted r.fork

/-- The reaped process leaves both tables. -/
theorem Roster.left_forget (h : s.Roster cfg) {c : Child} (hc : c ∈ s.children) :
    s.Left ((s.unlist c.pid).forget c.info) c.pid := by
  have hpids : ∀ {w p}, s.workerPidById.get? w = some p → p = c.pid →
      c.type = .worker ∧ c.workerId = w := by
    rintro w p hw rfl
    obtain ⟨d, hd, hpid, hdt, hid⟩ := h.mapped.mp hw
    obtain rfl := List.inj_on_of_nodup_map h.pids hd hc hpid
    exact ⟨hdt, hid⟩
  by_cases ht : c.type = .worker
  · have hforget : (s.unlist c.pid).forget c.info = { s.unlist c.pid with
        processesByPid := s.processesByPid.delete c.pid
        workerPidById := s.workerPidById.delete c.workerId
        workerHealthById := s.workerHealthById.delete c.workerId } := by
      have hnonneg := (h.ids c hc ht).1
      simp only [forget, ht, hnonneg, and_self, if_true, unlist]
    rw [hforget]
    refine ⟨rfl, rfl, ?_, rfl, rfl, rfl⟩
    intro w p
    dsimp only
    rw [OrderedMap.get?_delete]
    split
    · rename_i heq
      subst heq
      constructor
      · intro hnone
        cases hnone
      · rintro ⟨hw, hne⟩
        have hmine := h.mapped.mpr ⟨c, hc, rfl, ht, rfl⟩
        rw [hmine, Option.some.injEq] at hw
        exact absurd hw.symm hne
    · rename_i hne
      constructor
      · exact fun hw => ⟨hw, fun hp => hne (hpids hw hp).2⟩
      · exact fun hw => hw.1
  · have hforget : (s.unlist c.pid).forget c.info =
        { s.unlist c.pid with processesByPid := s.processesByPid.delete c.pid } := by
      simp only [forget, ht, false_and, if_false, unlist]
    rw [hforget]
    refine ⟨rfl, rfl, ?_, rfl, rfl, rfl⟩
    intro w p
    constructor
    · exact fun hw => ⟨hw, fun hp => ht (hpids hw hp).1⟩
    · exact fun hw => hw.1

/-- What is owed to a worker that has been reaped. -/
theorem Roster.owed_forget (h : s.Roster cfg) {c : Child} (hc : c ∈ s.children)
    (hown : c.type = .worker → only c.workerId) (ht : c.type = .worker) :
    Owed cfg only ((s.unlist c.pid).forget c.info)
      c.info := by
  refine ⟨?_, h.ids c hc ht, hown ht⟩
  have hmine := h.mapped.mpr ⟨c, hc, rfl, ht, rfl⟩
  have hleft := h.left_forget hc
  unfold Vacant
  cases hw : ((s.unlist c.pid).forget
      c.info).workerPidById.get? c.workerId with
  | none => rfl
  | some p =>
      obtain ⟨hold, hne⟩ := hleft.workers.mp hw
      rw [hmine, Option.some.injEq] at hold
      exact absurd hold.symm hne

theorem Roster.entry (h : s.Roster cfg) {c : Child} (hc : c ∈ s.children) :
    s.processesByPid.get? c.pid = some c.info :=
  h.entered.mpr ⟨c, hc, rfl, rfl⟩

theorem Roster.deeds_handleCrash (h : s.Roster cfg) {c : Child} (hc : c ∈ s.children)
    (hgone : gone c.pid) (hown : c.type = .worker → only c.workerId) (status : ℕ) (r : Readings) :
    Deeds cfg gone only s ((s.unlist c.pid).handleCrash c.pid status r) := by
  have hentry : (s.unlist c.pid).processesByPid.get? c.pid = some c.info :=
    h.entry hc
  have hforgot : Deeds cfg gone only s ((s.unlist c.pid).forget c.info) :=
    .single (.left c.pid (h.left_forget hc) hgone)
  have howed : c.info.type = .worker →
      Owed cfg only ((s.unlist c.pid).forget c.info) c.info := h.owed_forget hc hown
  have hreassign := deeds_handleWorkerReassignment hforgot howed status r.reassignFork
  unfold handleCrash
  simp only [hentry]
  split
  · exact hforgot
  · split
    · rename_i heq
      rw [heq] at hreassign
      exact hreassign.1
    · rename_i s₁ heq
      rw [heq] at hreassign
      have hlog := apart_writeCrashLog s₁ c.info status r
      have hlogged := hreassign.1.apart hlog
      split
      · exact hlogged
      · exact deeds_restartCrashed hlogged
          (fun ht => (hreassign.2 rfl ht).apart hlog) r

/-- Until the workers' boot is over, the ids that it has yet to come to have no process. -/
def BootIds (s : State) : Prop :=
  ∀ c ∈ s.children, c.type = .worker →
    match s.phase with
    | .startCache | .startReady | .startApi => False
    | .startWorkers next => c.workerId < next
    | _ => True

/-- The ids for which a step may start a worker. -/
def Starts (s : State) (a : Action) (w : ℤ) : Prop :=
  match a, s.phase with
  | .start _ _, .startWorkers next => w = next
  | .start _ _, .restarting next => w = next
  | .reap pid _, _ => s.workerPidById.get? w = some pid
  | _, _ => False

/-- The pids that a step may take off the tables. -/
def Ends (s : State) (a : Action) (pid : ℕ) : Prop :=
  match a, s.phase with
  | .reap p _, _ => pid = p
  | .waited, .stopped next => s.workerPidById.get? next = some pid
  | _, _ => False

theorem Roster.vacant_of (h : s.Roster cfg)
    (hne : ∀ c ∈ s.children, c.type = .worker → c.workerId ≠ w) : s.Vacant w := by
  cases hw : s.workerPidById.get? w with
  | none => exact hw
  | some pid =>
      obtain ⟨c, hc, -, ht, hid⟩ := h.mapped.mp hw
      exact absurd hid (hne c hc ht)

theorem ids_of_lt {k : ℕ} (hk : k < cfg.effectiveWorkerCount) :
    0 ≤ (k : ℤ) ∧ (k : ℤ) < cfg.effectiveWorkerCount :=
  ⟨Int.natCast_nonneg k, Int.ofNat_lt.mpr hk⟩

theorem Roster.deeds_startNext (h : s.Roster cfg) (hboot : s.BootIds) {fork : Fork}
    {runNonce : ℕ} (hs : s.startNext cfg fork runNonce = some s') :
    Deeds cfg gone (s.Starts (.start fork runNonce)) s s' := by
  unfold startNext at hs
  split at hs
  · have hcache : Deeds cfg gone (s.Starts (.start fork runNonce)) s
        (s.startModelCache fork runNonce).2 := deeds_startModelCache .refl fork runNonce
    split at hs <;> rename_i heq <;> rw [heq] at hcache <;> cases hs
    · exact hcache.apart (apart_enter _ _)
    · exact hcache.apart (apart_enter _ _)
  · have hapi : Deeds cfg gone (s.Starts (.start fork runNonce)) s (s.startApiServer fork).2 :=
      deeds_startApiServer .refl fork
    split at hs <;> rename_i heq <;> rw [heq] at hapi <;> cases hs
    · exact hapi.apart (apart_enter _ _)
    · exact hapi.apart (apart_enter _ _)
  · rename_i next hphase
    split at hs
    · rename_i hlt
      have hvacant : s.Vacant next := by
        apply h.vacant_of
        intro c hc ht
        have hbelow := hboot c hc ht
        rw [hphase] at hbelow
        exact hbelow.ne
      have hmine : s.Starts (.start fork runNonce) next := by
        unfold Starts
        rw [hphase]
      have hworker : Deeds cfg gone (s.Starts (.start fork runNonce)) s (s.startWorker next fork).2 :=
        deeds_startWorker .refl hvacant (ids_of_lt hlt) hmine fork
      split at hs <;> rename_i heq <;> rw [heq] at hworker <;> cases hs
      · exact hworker.apart (apart_enter _ _)
      · exact hworker.apart (apart_enter _ _)
    · cases hs
      exact Deeds.apart .refl (apart_enter _ _)
  · rename_i next hphase
    split at hs
    · rename_i hlt
      cases hs
      split
      · exact Deeds.apart .refl (apart_enter _ _)
      · rename_i hhas
        have hvacant : s.Vacant next := by
          unfold Vacant
          rw [OrderedMap.get?_eq_none_iff, ← OrderedMap.has_iff]
          exact hhas
        have hmine : s.Starts (.start fork runNonce) next := by
          unfold Starts
          rw [hphase]
        have hworker :
            Deeds cfg gone (s.Starts (.start fork runNonce)) s (s.restartWorker next fork) := by
          unfold restartWorker
          have hstart : Deeds cfg gone (s.Starts (.start fork runNonce)) s
              (s.startWorker next fork).2 :=
            deeds_startWorker .refl hvacant (ids_of_lt hlt) hmine fork
          split
          · rename_i heq
            rw [heq] at hstart
            exact hstart
          · rename_i heq
            rw [heq] at hstart
            exact hstart.apart (apart_notify _ _ _)
        exact hworker.apart (apart_enter _ _)
    · cases hs
      exact Deeds.apart .refl (apart_enter _ _)
  · cases hs

/-- The pid of a worker id is an unreaped child's. -/
theorem Roster.serialOf_ne (h : s.Roster cfg) (hw : s.workerPidById.get? w = some pid) :
    s.serialOf pid ≠ none := by
  obtain ⟨c, hc, rfl, -⟩ := h.mapped.mp hw
  rw [(serialOf_eq_some h.pids).mpr ⟨c, hc, rfl, rfl⟩]
  exact Option.some_ne_none _

theorem Roster.apart_checkWorkers (h : s.Roster cfg) {limits : LivenessLimits}
    {entries : List (ℤ × ℕ)} (hentries : ∀ e ∈ entries, s.workerPidById.get? e.1 = some e.2)
    (now : ℤ) : s.Apart (entries.foldl (checkWorker limits now) s) := by
  induction entries generalizing s with
  | nil => exact .refl s
  | cons e rest ih =>
      have hone : s.Apart (checkWorker limits now s e) := by
        obtain hsame | ⟨health, -, heq⟩ := checkWorker_cases limits now s e.1 e.2
        · rw [hsame]
          exact .refl s
        · rw [heq]
          refine ⟨rfl, rfl, rfl, rfl, ⟨_, rfl, ?_⟩, id⟩
          intro event hmem
          rw [List.mem_singleton.mp hmem]
          exact h.serialOf_ne (hentries e List.mem_cons_self)
      refine hone.trans (ih (h.apart hone) fun e' he' => ?_)
      rw [hone.workers]
      exact hentries e' (List.mem_cons_of_mem _ he')

theorem apart_readConnection (s : State) (conn : Connection) (now : ℤ) :
    s.Apart (s.readConnection conn now) := by
  unfold readConnection
  generalize conn.text.splitOn '\n' = lines
  induction lines generalizing s with
  | nil => exact .refl s
  | cons line lines ih =>
      have hone : s.Apart (readLine now conn.sender s line) := by
        unfold readLine
        split
        · exact .refl s
        · refine ⟨rfl, rfl, rfl, rfl, ⟨_, rfl, fun e he => ?_⟩, id⟩
          rw [List.mem_singleton.mp he]
          trivial
      exact hone.trans (ih _)

/-- Every step is a chain of deeds. -/
theorem Roster.deeds_of_step (h : s.Roster cfg) (hboot : s.BootIds) {a : Action}
    (hs : step cfg s a = some s') : Deeds cfg (s.Ends a) (s.Starts a) s s' := by
  cases a with
  | beat serial busyMs device =>
      simp only [Supervisor.step, beat] at hs
      split at hs
      · cases hs
      · split at hs
        · cases hs
          exact .single (.aside (.of_same rfl rfl rfl rfl rfl id))
        · cases hs
  | die serial status =>
      cases hs
      exact .single (.ended serial status rfl)
  | requestStop =>
      cases hs
      exact .single (.aside (.of_same rfl rfl rfl rfl rfl fun hr => by cases hr))
  | start fork runNonce => exact h.deeds_startNext hboot hs
  | ready observed =>
      simp only [Supervisor.step, observeReady] at hs
      split at hs <;> cases hs
      · exact .single (.aside (apart_enter _ _))
      · exact .single (.aside (apart_enter _ _))
  | reap pid r =>
      simp only [Supervisor.step, reap] at hs
      split at hs
      · rename_i c _ hfind
        obtain ⟨status, -, rfl⟩ := Option.map_eq_some_iff.mp hs
        have hpid : c.pid = pid := by simpa using List.find?_some hfind
        subst hpid
        have hc := List.mem_of_find?_eq_some hfind
        have hgone : s.Ends (.reap c.pid r) c.pid := rfl
        have hown : c.type = .worker → s.Starts (.reap c.pid r) c.workerId := fun ht =>
          h.mapped.mpr ⟨c, hc, rfl, ht, rfl⟩
        exact h.deeds_handleCrash hc hgone hown status r
      · cases hs
  | stop =>
      simp only [Supervisor.step, stopNext] at hs
      split at hs
      · split at hs
        · split at hs <;> cases hs
          · exact .single (.aside (apart_enter _ _))
          · rename_i hpid
            refine Deeds.apart (.single (.aside (apart_log s ?_))) (apart_enter _ _)
            exact h.serialOf_ne hpid
        · cases hs
          exact .single (.aside (apart_enter _ _))
      · cases hs
  | waited =>
      simp only [Supervisor.step, waited] at hs
      split at hs
      · split at hs
        · rename_i next hphase _ pid hpid
          split at hs
          · cases hs
            have hends : s.Ends .waited pid := by
              unfold Ends
              rw [hphase]
              exact hpid
            refine Deeds.apart (.single (.left pid ?_ hends)) (apart_enter _ _)
            refine ⟨rfl, rfl, ?_, rfl, rfl, rfl⟩
            intro w p
            simp only [stopWorker, OrderedMap.get?_delete]
            obtain ⟨c, hc, rfl, ht, hid⟩ := h.mapped.mp hpid
            split
            · rename_i heq
              subst heq
              constructor
              · intro hnone
                cases hnone
              · rintro ⟨hw, hne⟩
                rw [hpid, Option.some.injEq] at hw
                exact absurd hw.symm hne
            · rename_i hne
              constructor
              · intro hw
                refine ⟨hw, ?_⟩
                rintro rfl
                obtain ⟨d, hd, hdp, -, hdw⟩ := h.mapped.mp hw
                obtain rfl := List.inj_on_of_nodup_map h.pids hd hc hdp
                exact hne (hid.symm.trans hdw)
              · exact fun hw => hw.1
          · cases hs
        · cases hs
      · cases hs
  | accept now =>
      simp only [Supervisor.step, accept] at hs
      split at hs
      · rename_i conn rest _ _
        cases hs
        have hrest : s.Apart { s with backlog := rest } :=
          .of_same rfl rfl rfl rfl rfl id
        exact .single (.aside (hrest.trans (apart_readConnection _ conn now)))
      · cases hs
  | reaped =>
      obtain ⟨-, hs⟩ := Option.ite_none_right_eq_some.mp hs
      cases hs
      exact .single (.aside (apart_enter _ _))
  | drained =>
      obtain ⟨-, hs⟩ := Option.ite_none_right_eq_some.mp hs
      cases hs
      exact .single (.aside (apart_enter _ _))
  | check now =>
      obtain ⟨-, hs⟩ := Option.ite_none_right_eq_some.mp hs
      cases hs
      refine Deeds.apart (.single (.aside ?_)) (apart_enter _ _)
      exact h.apart_checkWorkers (fun _ he => OrderedMap.get?_eq_some_iff.mpr he) now
  | wake =>
      obtain ⟨-, hs⟩ := Option.ite_none_right_eq_some.mp hs
      cases hs
      exact .single (.aside (apart_enter _ _))

theorem phase_startWorker (s : State) (w : ℤ) (fork : Fork) :
    (s.startWorker w fork).2.phase = s.phase := by
  unfold startWorker
  obtain hfail | ⟨p, -, hfork⟩ := forkExec_cases s fork.pid (s.newWorker w)
  · rw [hfail]
  · rw [hfork]

theorem phase_writeCrashLog (s : State) (info : ProcessInfo) (status : ℕ) (r : Readings) :
    (s.writeCrashLog info status r).phase = s.phase := by
  unfold writeCrashLog
  split <;> rfl

theorem phase_handleWorkerReassignment (s : State) (info : ProcessInfo) (status : ℕ)
    (fork : Fork) : (s.handleWorkerReassignment info status fork).2.phase = s.phase := by
  unfold handleWorkerReassignment
  split
  · rfl
  · split
    · rfl
    · split
      · dsimp only
        split <;> rename_i heq
        · exact (congrArg (State.phase ∘ Prod.snd) heq).symm.trans (phase_startWorker _ _ _)
        · exact (congrArg (State.phase ∘ Prod.snd) heq).symm.trans (phase_startWorker _ _ _)
      · rfl

/-- The handling of a crash leaves the phase, or begins the wait for a new model cache. -/
theorem phase_restartCrashed (s : State) (info : ProcessInfo) (r : Readings) :
    (s.restartCrashed info r).phase = s.phase ∨ (s.restartCrashed info r).phase = .cacheReady := by
  have hcount : ∀ t : State, ∀ key, (t.registerCrash key info r).2.phase = t.phase :=
    fun _ _ => rfl
  unfold restartCrashed
  split
  · have hnotified := hcount (s.notifyApiServer .workerCrashed info.workerId) info.workerId
    split <;> rename_i heq <;> rw [heq] at hnotified
    · exact .inl hnotified
    · rename_i s₁
      have hstart := phase_startWorker s₁ info.workerId r.fork
      split <;> rename_i heq' <;> rw [heq'] at hstart
      · exact .inl (hstart.trans hnotified)
      · exact .inl (hstart.trans hnotified)
  · have hcounted := hcount s circuitKeyModelCache
    split <;> rename_i heq <;> rw [heq] at hcounted
    · exact .inl hcounted
    · split
      · rename_i s₁ _ _ heq'
        refine .inl (Eq.trans ?_ hcounted)
        have hcache : (s₁.startModelCache r.fork r.runNonce).2.phase = s₁.phase := by
          unfold startModelCache
          dsimp only
          obtain hfail | ⟨p, -, hfork⟩ := forkExec_cases { s₁ with runNonce := r.runNonce }
            r.fork.pid { serial := 0, pid := 0, type := .modelCache, runNonce := r.runNonce }
          · rw [hfail]
          · rw [hfork]
        rw [heq'] at hcache
        exact hcache
      · exact .inr rfl
  · have hcounted := hcount s circuitKeyApiServer
    split <;> rename_i heq <;> rw [heq] at hcounted
    · exact .inl hcounted
    · rename_i s₁
      refine .inl (Eq.trans ?_ hcounted)
      unfold startApiServer
      obtain hfail | ⟨p, -, hfork⟩ :=
        forkExec_cases s₁ r.fork.pid { serial := 0, pid := 0, type := .apiServer }
      · rw [hfail]
      · rw [hfork]

theorem phase_handleCrash (s : State) (pid status : ℕ) (r : Readings) :
    (s.handleCrash pid status r).phase = s.phase ∨
      (s.handleCrash pid status r).phase = .cacheReady := by
  unfold handleCrash
  split
  · exact .inl rfl
  · rename_i info _
    have hforget : (s.forget info).phase = s.phase := by
      unfold forget
      dsimp only
      split <;> rfl
    dsimp only
    split
    · exact .inl hforget
    · have hreassign := phase_handleWorkerReassignment (s.forget info) info status r.reassignFork
      split <;> rename_i heq <;> rw [heq] at hreassign
      · exact .inl (hreassign.trans hforget)
      · rename_i s₁
        have hlog := phase_writeCrashLog s₁ info status r
        split
        · exact .inl (hlog.trans (hreassign.trans hforget))
        · obtain hsame | hcache := phase_restartCrashed (s₁.writeCrashLog info status r) info r
          · exact .inl (hsame.trans (hlog.trans (hreassign.trans hforget)))
          · exact .inr hcache

theorem phase_readConnection (s : State) (conn : Connection) (now : ℤ) :
    (s.readConnection conn now).phase = s.phase := by
  unfold readConnection
  generalize conn.text.splitOn '\n' = lines
  induction lines generalizing s with
  | nil => rfl
  | cons line lines ih =>
      rw [List.foldl_cons, ih]
      unfold readLine
      split <;> rfl

theorem bootIds_of_not_boot (h : ¬ s.phase.Boot) : s.BootIds := by
  intro c _ _
  cases hp : s.phase with
  | startCache => exact h (hp ▸ trivial)
  | startReady => exact h (hp ▸ trivial)
  | startApi => exact h (hp ▸ trivial)
  | startWorkers next => exact absurd (hp ▸ trivial) h
  | _ => trivial

theorem BootIds.of_same (h : s.BootIds) (hp : s'.phase = s.phase)
    (hc : ∀ d ∈ s'.children, ∃ c ∈ s.children, d.type = c.type ∧ d.workerId = c.workerId) :
    s'.BootIds := by
  intro d hd ht
  obtain ⟨c, hc, htype, hid⟩ := hc d hd
  rw [hp, hid]
  exact h c hc (htype ▸ ht)

theorem BootIds.startNext (h : s.BootIds) {fork : Fork} {runNonce : ℕ}
    (hs : s.startNext cfg fork runNonce = some s') : s'.BootIds := by
  unfold State.startNext at hs
  split at hs
  · rename_i hphase
    have hfree : ∀ c ∈ s.children, c.type ≠ .worker := by
      intro c hc ht
      have hno := h c hc ht
      rwa [hphase] at hno
    have hcache := noWorker_startModelCache hfree fork runNonce
    split at hs <;> rename_i heq <;> rw [heq] at hcache <;> cases hs
    · exact fun c hc ht => absurd ht (hcache c hc)
    · exact bootIds_of_not_boot id
  · rename_i hphase
    have hfree : ∀ c ∈ (s.startApiServer fork).2.children, c.type ≠ .worker := by
      intro c hc ht
      unfold startApiServer at hc
      obtain hfail | ⟨p, -, hfork⟩ :=
        forkExec_cases s fork.pid { serial := 0, pid := 0, type := .apiServer }
      · rw [hfail] at hc
        have hno := h c hc ht
        rwa [hphase] at hno
      · rw [hfork] at hc
        obtain hc | hc := List.mem_append.mp hc
        · have hno := h c hc ht
          rwa [hphase] at hno
        · rw [List.mem_singleton.mp hc] at ht
          cases ht
    split at hs <;> rename_i heq <;> rw [heq] at hfree <;> cases hs
    · exact fun c hc ht => absurd ht (hfree c hc)
    · exact bootIds_of_not_boot id
  · rename_i next hphase
    split at hs
    · split at hs <;> rename_i s₁ heq <;> cases hs
      · intro c hc ht
        have hchildren : ∀ c ∈ (s.startWorker next fork).2.children,
            c ∈ s.children ∨ c.workerId = next := by
          intro c hc
          unfold startWorker at hc
          obtain hfail | ⟨p, -, hfork⟩ := forkExec_cases s fork.pid (s.newWorker next)
          · rw [hfail] at hc
            exact .inl hc
          · rw [hfork] at hc
            obtain hc | hc := List.mem_append.mp hc
            · exact .inl hc
            · exact .inr (congrArg Child.workerId (List.mem_singleton.mp hc))
        rw [heq] at hchildren
        obtain hold | hnew := hchildren c hc
        · have hbelow := h c hold ht
          rw [hphase] at hbelow
          exact hbelow.trans (Int.lt_succ _)
        · rw [hnew]
          exact Int.lt_succ _
      · exact bootIds_of_not_boot id
    · cases hs
      exact bootIds_of_not_boot id
  · split at hs <;> cases hs
    · exact bootIds_of_not_boot id
    · exact bootIds_of_not_boot id
  · cases hs

/-- The supervisor's loop does not lead back into its boot. -/
theorem not_boot_step (h : ¬ s.phase.Boot) {a : Action} (hs : Supervisor.step cfg s a = some s') :
    ¬ s'.phase.Boot := by
  cases a with
  | beat serial busyMs device =>
      simp only [Supervisor.step, beat] at hs
      split at hs
      · cases hs
      · split at hs <;> cases hs
        exact h
  | die serial status =>
      cases hs
      exact h
  | requestStop =>
      cases hs
      exact h
  | start fork runNonce =>
      simp only [Supervisor.step, State.startNext] at hs
      split at hs <;> rename_i hphase
      · exact absurd (hphase ▸ trivial) h
      · exact absurd (hphase ▸ trivial) h
      · exact absurd (hphase ▸ trivial) h
      · split at hs <;> cases hs
        · exact id
        · exact id
      · cases hs
  | ready observed =>
      simp only [Supervisor.step, observeReady] at hs
      split at hs <;> rename_i hphase <;> cases hs
      · exact absurd (hphase ▸ trivial) h
      · cases observed <;> exact id
  | reap pid r =>
      simp only [Supervisor.step, reap] at hs
      split at hs
      · rename_i c hphase _
        obtain ⟨status, -, rfl⟩ := Option.map_eq_some_iff.mp hs
        obtain hsame | hcache := phase_handleCrash (s.unlist pid) pid status r
        · have hreaping : (s.unlist pid).phase = .reaping := hphase
          rw [hsame, hreaping]
          exact id
        · rw [hcache]
          exact id
      · cases hs
  | stop =>
      simp only [Supervisor.step, stopNext] at hs
      split at hs
      · split at hs
        · split at hs <;> cases hs
          · exact id
          · exact id
        · cases hs
          exact id
      · cases hs
  | waited =>
      simp only [Supervisor.step, waited] at hs
      split at hs
      · split at hs
        · split at hs <;> cases hs
          exact id
        · cases hs
      · cases hs
  | accept now =>
      simp only [Supervisor.step, accept] at hs
      split at hs
      · cases hs
        rw [phase_readConnection]
        exact h
      · cases hs
  | reaped =>
      obtain ⟨-, hs⟩ := Option.ite_none_right_eq_some.mp hs
      cases hs
      exact id
  | drained =>
      obtain ⟨-, hs⟩ := Option.ite_none_right_eq_some.mp hs
      cases hs
      exact id
  | check now =>
      obtain ⟨-, hs⟩ := Option.ite_none_right_eq_some.mp hs
      cases hs
      exact id
  | wake =>
      obtain ⟨-, hs⟩ := Option.ite_none_right_eq_some.mp hs
      cases hs
      cases hrunning : s.running <;> simp [enter, Phase.Boot]

theorem BootIds.step (h : s.BootIds) {a : Action} (hs : Supervisor.step cfg s a = some s') :
    s'.BootIds := by
  by_cases hboot : s.phase.Boot
  · have hloop : ∀ {phase : Phase}, s.phase = phase → ¬ phase.Boot → s'.BootIds :=
      fun hphase hnot => absurd (hphase ▸ hboot) hnot
    cases a with
    | beat serial busyMs device =>
        simp only [Supervisor.step, beat] at hs
        split at hs
        · cases hs
        · split at hs <;> cases hs
          exact h.of_same rfl fun c hc => ⟨c, hc, rfl, rfl⟩
    | die serial status =>
        cases hs
        refine h.of_same rfl fun d hd => ?_
        obtain ⟨c, hc, rfl⟩ := List.mem_map.mp hd
        exact ⟨c, hc, endChild_type .., endChild_workerId ..⟩
    | requestStop =>
        cases hs
        exact h.of_same rfl fun c hc => ⟨c, hc, rfl, rfl⟩
    | start fork runNonce => exact h.startNext hs
    | ready observed =>
        simp only [Supervisor.step, observeReady] at hs
        split at hs <;> rename_i hphase
        · have hfree : ∀ c ∈ s.children, c.type ≠ .worker := by
            intro c hc ht
            have hno := h c hc ht
            rwa [hphase] at hno
          cases hs
          exact fun c hc ht => absurd ht (hfree c hc)
        · exact hloop hphase id
        · cases hs
    | reap pid r =>
        simp only [Supervisor.step, reap] at hs
        split at hs
        · rename_i hphase _
          exact hloop hphase id
        · cases hs
    | stop =>
        simp only [Supervisor.step, stopNext] at hs
        split at hs
        · rename_i hphase
          exact hloop hphase id
        · cases hs
    | waited =>
        simp only [Supervisor.step, waited] at hs
        split at hs
        · rename_i hphase
          exact hloop hphase id
        · cases hs
    | accept now =>
        simp only [Supervisor.step, accept] at hs
        split at hs
        · rename_i hphase _
          exact hloop hphase id
        · cases hs
    | reaped => exact hloop (Option.ite_none_right_eq_some.mp hs).1.1 id
    | drained => exact hloop (Option.ite_none_right_eq_some.mp hs).1 id
    | check now => exact hloop (Option.ite_none_right_eq_some.mp hs).1 id
    | wake => exact hloop (Option.ite_none_right_eq_some.mp hs).1 id
  · exact bootIds_of_not_boot (not_boot_step hboot hs)

end State

end ServeInfer.Supervisor
