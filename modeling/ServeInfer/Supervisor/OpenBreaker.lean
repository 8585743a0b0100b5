import ServeInfer.Supervisor.Incarnations
import ServeInfer.Supervisor.OneProcess

/-!
# A breaker that was found open

The breaker's decision is kept nowhere but in the missing entry of the worker
id. A reaped process can be replaced only for its own id, so the one way to a
new process for that id is the loop that follows a model-cache restart.
-/

namespace ServeInfer.Supervisor

namespace State

/-- What `handleCrash` goes by when it comes to restart a process: its entry, and the state with
the crash logged. -/
def crashed (s : State) (pid status : ℕ) (r : Readings) : Option (ProcessInfo × State) :=
  match s.processesByPid.get? pid with
  | none => none
  | some info =>
      if exitCode? status = some 0 then none
      else
        match (s.forget info).handleWorkerReassignment info status r.reassignFork with
        | (true, _) => none
        | (false, s) =>
            let s := s.writeCrashLog info status r
            if s.running = false then none else some (info, s)

/-- The breaker's answer for a crashed worker, and the state with the crash counted. -/
def askBreaker (s : State) (info : ProcessInfo) (r : Readings) : Bool × State :=
  (s.notifyApiServer .workerCrashed info.workerId).registerCrash info.workerId info r

/-- The process that a reap finds crashed, and the state in which it is to be restarted. -/
def crashedChild (s : State) (pid : ℕ) (r : Readings) : Option (ProcessInfo × State) :=
  (s.children.find? fun c => c.pid = pid).bind fun c =>
    c.status.bind fun status => (s.unlist pid).crashed pid status r

/-- The worker id whose breaker a reap's `handleCrash` finds open. -/
def foundOpen (s : State) (pid : ℕ) (r : Readings) : Option ℤ :=
  (s.crashedChild pid r).bind fun (info, s) =>
    if info.type = .worker ∧ (s.askBreaker info r).1 = true then some info.workerId else none

/-- The step is a turn of the loop behind a model-cache restart that starts a process for the
worker id: the loop has come to it, it has no process, and the fork succeeds. -/
def Restarts (cfg : Config) (w : ℤ) (s : State) : Action → Prop
  | .start fork _ =>
      match s.phase, fork.pid with
      | .restarting next, some pid =>
          next < cfg.effectiveWorkerCount ∧ (next : ℤ) = w ∧ s.workerPidById.has next = false ∧
            pid ∉ s.pids
      | _, _ => False
  | _ => False

instance (cfg : Config) (w : ℤ) (s : State) (a : Action) : Decidable (s.Restarts cfg w a) := by
  unfold Restarts
  split
  · split <;> infer_instance
  · infer_instance

/-- No process has been started for the worker id since the trace had this length. -/
def Unstarted (w : ℤ) (length : ℕ) (s : State) : Prop :=
  ∀ n now, .spawned n w now ∉ s.trace.drop length

variable {cfg : Config} {gone : ℕ → Prop} {only : ℤ → Prop} {s s' s₁ s₂ : State} {w : ℤ}
  {pid status length : ℕ}
  {r : Readings} {info : ProcessInfo} {as bs : List Action}

theorem handleCrash_crashed (h : s.crashed pid status r = some (info, s')) :
    s.handleCrash pid status r = s'.restartCrashed info r := by
  unfold crashed at h
  unfold handleCrash
  cases hinfo : s.processesByPid.get? pid with
  | none =>
      rw [hinfo] at h
      cases h
  | some entry =>
      rw [hinfo] at h
      dsimp only at h ⊢
      by_cases hexit : exitCode? status = some 0
      · rw [if_pos hexit] at h
        cases h
      · rw [if_neg hexit] at h ⊢
        cases hreassign : (s.forget entry).handleWorkerReassignment entry status r.reassignFork with
        | mk reassigned after =>
            rw [hreassign] at h
            cases reassigned with
            | true => cases h
            | false =>
                dsimp only at h ⊢
                by_cases hrunning : (after.writeCrashLog entry status r).running = false
                · rw [if_pos hrunning] at h
                  cases h
                · rw [if_neg hrunning] at h ⊢
                  cases h
                  rfl

theorem restartCrashed_worker (ht : info.type = .worker) :
    s.restartCrashed info r =
      match s.askBreaker info r with
      | (true, s) => s
      | (false, s) =>
          match s.startWorker info.workerId r.fork with
          | (false, s) => s
          | (true, s) => s.notifyApiServer .workerRestarted info.workerId := by
  obtain ⟨pid, type, workerId⟩ := info
  obtain rfl : type = .worker := ht
  rfl

/-- An open breaker ends the handling of a crashed worker. -/
theorem restartCrashed_open (ht : info.type = .worker) (hopen : (s.askBreaker info r).1 = true) :
    s.restartCrashed info r = (s.askBreaker info r).2 := by
  rw [restartCrashed_worker ht]
  split <;> rename_i heq <;> rw [heq] at hopen ⊢
  cases hopen

theorem apart_askBreaker (s : State) (info : ProcessInfo) (r : Readings) :
    s.Apart (s.askBreaker info r).2 :=
  (apart_notify s .workerCrashed info.workerId).trans (apart_registerCrash _ _ _ _)

theorem Unstarted.append {es : List Event} (h : s.Unstarted w length)
    (hes : ∀ n now, .spawned n w now ∉ es) (ht : s'.trace = s.trace ++ es) :
    s'.Unstarted w length := by
  intro n now hmem
  rw [ht, List.drop_append] at hmem
  obtain hmem | hmem := List.mem_append.mp hmem
  · exact h n now hmem
  · exact hes n now (List.mem_of_mem_drop hmem)

/-- A deed only adds to the trace. -/
theorem Deed.trace_grows (hd : Deed cfg gone only s s') : s.trace <+: s'.trace := by
  cases hd with
  | aside ha =>
      obtain ⟨es, hes, -⟩ := ha.trace
      exact ⟨es, hes.symm⟩
  | demoted i a reason ha hcuda hvacant heq =>
      subst heq
      exact List.prefix_refl _
  | singleton c hl ht hw htrace => exact htrace ▸ List.prefix_refl _
  | staffed c now hf _ => exact ⟨_, hf.trace.symm⟩
  | left pid hl _ => exact hl.trace ▸ List.prefix_refl _
  | ended serial status heq =>
      subst heq
      exact List.prefix_refl _

theorem Deeds.trace_grows (h : Deeds cfg gone only s s') : s.trace <+: s'.trace := by
  induction h with
  | refl => exact List.prefix_refl _
  | tail _ hd ih => exact ih.trans hd.trace_grows

/-- A deed that may start nobody for the id starts nobody. -/
theorem Unstarted.deed (h : s.Unstarted w length) (hnot : ¬ only w)
    (hd : Deed cfg gone only s s') : s'.Unstarted w length := by
  cases hd with
  | aside ha =>
      obtain ⟨es, hes, hsoft⟩ := ha.trace
      exact h.append (fun n now hmem => hsoft _ hmem) hes
  | demoted i a reason ha hcuda hvacant heq =>
      subst heq
      exact h
  | singleton c hl ht hw htrace =>
      unfold Unstarted
      rw [htrace]
      exact h
  | staffed c now hf hid =>
      refine h.append ?_ hf.trace
      intro n t hmem
      have hsame := List.mem_singleton.mp hmem
      rw [Event.spawned.injEq] at hsame
      exact hnot (hsame.2.1 ▸ hid)
  | left pid hl _ =>
      unfold Unstarted
      rw [hl.trace]
      exact h
  | ended serial status heq =>
      subst heq
      exact h

/-- A deed that may start nobody for the id leaves it without a process. -/
theorem Vacant.deed (h : s.Vacant w) (hnot : ¬ only w) (hd : Deed cfg gone only s s') :
    s'.Vacant w := by
  unfold Vacant at h ⊢
  cases hd with
  | aside ha => rw [ha.workers, h]
  | demoted i a reason ha hcuda hvacant heq =>
      subst heq
      exact h
  | singleton c hl ht hw htrace => rw [hw, h]
  | staffed c now hf hid =>
      have hne : c.workerId ≠ w := fun heq => hnot (heq ▸ hid)
      rw [hf.workers, OrderedMap.get?_set_of_ne _ _ hne, h]
  | left pid hl _ =>
      cases hw : s'.workerPidById.get? w with
      | none => rfl
      | some p =>
          have hold := (hl.workers.mp hw).1
          rw [h] at hold
          cases hold
  | ended serial status heq =>
      subst heq
      exact h

/-- A crashed process is the reaped child, it has been taken off the lists before anything else is
done, and its id has no process any more. -/
theorem Roster.crashed_owed (h : s.Roster cfg) {c : Child} (hc : c ∈ s.children)
    (hcrashed : (s.unlist c.pid).crashed c.pid status r = some (info, s')) :
    info = c.info ∧
      Deeds cfg (fun _ => False) (fun _ => True) ((s.unlist c.pid).forget c.info) s' ∧
      (c.type = .worker → Owed cfg (fun _ => True) s' c.info) := by
  have hentry : (s.unlist c.pid).processesByPid.get? c.pid = some c.info := h.entry hc
  have howed : c.info.type = .worker → Owed cfg (fun _ => True)
      ((s.unlist c.pid).forget c.info) c.info := h.owed_forget hc fun _ => trivial
  have hforgot : Deeds cfg (fun _ => False) (fun _ => True) ((s.unlist c.pid).forget c.info)
      ((s.unlist c.pid).forget c.info) := .refl
  have hreassign := deeds_handleWorkerReassignment hforgot howed status r.reassignFork
  simp only [crashed, hentry] at hcrashed
  split at hcrashed
  · cases hcrashed
  · split at hcrashed
    · cases hcrashed
    · rename_i s₀ heq
      rw [heq] at hreassign
      split at hcrashed
      · cases hcrashed
      · cases hcrashed
        exact ⟨rfl, hreassign.1.apart (apart_writeCrashLog _ _ _ _),
          fun ht => (hreassign.2 rfl ht).apart (apart_writeCrashLog _ _ _ _)⟩

theorem crashedChild_eq_some (h : s.crashedChild pid r = some (info, s')) :
    ∃ c ∈ s.children, c.pid = pid ∧ s.children.find? (fun c => c.pid = pid) = some c ∧
      ∃ status, c.status = some status ∧
        (s.unlist pid).crashed pid status r = some (info, s') := by
  obtain ⟨c, hfind, h⟩ := Option.bind_eq_some_iff.mp h
  obtain ⟨status, hstatus, hcrashed⟩ := Option.bind_eq_some_iff.mp h
  exact ⟨c, List.mem_of_find?_eq_some hfind, by simpa using List.find?_some hfind, hfind, status,
    hstatus, hcrashed⟩

/-- The step that reaps a crashed process goes on to restart it. -/
theorem reap_crashed (h : s.crashedChild pid r = some (info, s₁))
    (hs : s.reap pid r = some s') : s' = s₁.restartCrashed info r := by
  obtain ⟨c, -, rfl, hfind, status, hstatus, hcrashed⟩ := crashedChild_eq_some h
  unfold reap at hs
  rw [hfind] at hs
  split at hs
  · rename_i d _ hsame
    obtain rfl := Option.some.inj hsame
    rw [hstatus, Option.map_some, Option.some.injEq, handleCrash_crashed hcrashed] at hs
    exact hs.symm
  · cases hs

/-- The process whose breaker is found open is gone and not replaced. -/
theorem Roster.vacant_of_foundOpen (h : s.Roster cfg) (hopen : s.foundOpen pid r = some w)
    (hs : s.reap pid r = some s') : s'.Vacant w := by
  obtain ⟨⟨info, s₀⟩, hchild, hif⟩ := Option.bind_eq_some_iff.mp hopen
  obtain ⟨⟨ht, htrue⟩, hid⟩ := Option.ite_none_right_eq_some.mp hif
  obtain rfl := Option.some.inj hid
  rw [reap_crashed hchild hs, restartCrashed_open ht htrue]
  obtain ⟨c, hc, rfl, -, status, -, hcrashed⟩ := crashedChild_eq_some hchild
  obtain ⟨rfl, -, howed⟩ := h.crashed_owed hc hcrashed
  exact ((howed ht).apart (apart_askBreaker s₀ c.info r)).vacant

/-- The booted supervisor, with no process for the id since the trace had this length. -/
structure Shut (cfg : Config) (w : ℤ) (length : ℕ) (s : State) : Prop where
  manned : s.Manned cfg
  booted : ¬ s.phase.Boot
  vacant : s.Vacant w
  le : length ≤ s.trace.length
  unstarted : s.Unstarted w length

/-- A turn of the restart loop for the id that starts nobody changes only the phase. -/
theorem startNext_idle {fork : Fork} {runNonce next : ℕ} (hphase : s.phase = .restarting next)
    (hvacant : s.Vacant next) (hnot : ¬ s.Restarts cfg next (.start fork runNonce))
    (hs : s.startNext cfg fork runNonce = some s') : ∃ phase, s' = s.enter phase := by
  have hhas : s.workerPidById.has next = false := by
    rw [← Bool.not_eq_true, OrderedMap.has_iff, ← OrderedMap.get?_eq_none_iff]
    exact hvacant
  simp only [startNext, hphase] at hs
  split at hs
  · rename_i hlt
    have hfail : ∀ p, fork.pid = some p → p ∈ s.pids := by
      intro p hp
      by_contra hfresh
      apply hnot
      simp only [Restarts, hphase, hp]
      exact ⟨hlt, trivial, hhas, hfresh⟩
    have hsame : s.startWorker next fork = (false, s) := by
      unfold startWorker forkExec
      cases hp : fork.pid with
      | none => rfl
      | some p => simp only [if_pos (hfail p hp)]
    rw [hhas] at hs
    simp only [Bool.false_eq_true, if_false, restartWorker, hsame] at hs
    cases hs
    exact ⟨_, rfl⟩
  · cases hs
    exact ⟨_, rfl⟩

/-- A step that is no such turn starts nobody for the id. -/
theorem Shut.step (h : s.Shut cfg w length) {a : Action} (hnot : ¬ s.Restarts cfg w a)
    (hs : Supervisor.step cfg s a = some s') : s'.Shut cfg w length := by
  have hdeeds := h.manned.roster.deeds_of_step h.manned.bootIds hs
  have hboth : s'.Vacant w ∧ s'.Unstarted w length := by
    by_cases hstarts : s.Starts a w
    · unfold Starts at hstarts
      split at hstarts
      · rename_i hphase
        exact absurd (hphase ▸ trivial) h.booted
      · rename_i fork runNonce next hphase
        subst hstarts
        obtain ⟨phase, rfl⟩ := startNext_idle hphase h.vacant hnot hs
        exact ⟨h.vacant, h.unstarted⟩
      · rw [h.vacant] at hstarts
        cases hstarts
      · exact hstarts.elim
    · constructor
      · exact hdeeds.invariant (fun t _ (ht : t.Vacant w) hd => ht.deed hstarts hd) h.vacant
      · exact hdeeds.invariant (fun t _ (ht : t.Unstarted w length) hd => ht.deed hstarts hd)
          h.unstarted
  exact ⟨h.manned.step hs, not_boot_step h.booted hs, hboth.1,
    h.le.trans hdeeds.trace_grows.length_le, hboth.2⟩

/-- Such a turn starts one. -/
theorem Shut.started (h : s.Shut cfg w length) {a : Action} (hrestarts : s.Restarts cfg w a)
    (hs : Supervisor.step cfg s a = some s') : ¬ s'.Unstarted w length := by
  cases a with
  | start fork runNonce =>
      simp only [Restarts] at hrestarts
      split at hrestarts
      · rename_i next pid hphase hpid
        obtain ⟨hlt, hid, hhas, hfresh⟩ := hrestarts
        subst hid
        have hfork : s.startWorker next fork = (true, (s.startWorker next fork).2) := by
          simp only [startWorker, forkExec, hpid, hfresh, if_false]
        have htrace : (s.startWorker next fork).2.trace =
            s.trace ++ [.spawned s.forks next fork.now] := by
          simp only [startWorker, forkExec, hpid, hfresh, if_false, Nat.add_sub_cancel]
        have hend : s'.trace = s.trace ++ [.spawned s.forks next fork.now,
            .notified .workerRestarted next] := by
          simp only [Supervisor.step, startNext, hphase, hlt, if_true, hhas, Bool.false_eq_true,
            if_false, restartWorker, Option.some.injEq] at hs
          rw [hfork] at hs
          subst hs
          simp only [enter, notifyApiServer, log, htrace, List.append_assoc, List.cons_append,
            List.nil_append]
        intro hno
        apply hno s.forks fork.now
        rw [hend, List.drop_append_of_le_length h.le]
        simp
      · exact hrestarts.elim
  | _ => exact hrestarts.elim

end State

variable {cfg : Config} {s s₁ s₂ : State} {w : ℤ} {pid : ℕ} {r : Readings} {as bs : List Action}

/-- From where `handleCrash` has found the breaker of a worker id open, no process is started for
that id exactly as long as no turn of the loop behind a model-cache restart comes to it, below the
effective count and with a fork that succeeds. -/
theorem breaker_stays_open_iff (hrun : Machine.exec (step cfg) (init cfg) as = some s)
    (hopen : s.foundOpen pid r = some w) (hs : step cfg s (.reap pid r) = some s₁)
    (hrest : Machine.exec (step cfg) s₁ bs = some s₂) :
    Machine.Always (step cfg) (State.Unstarted w s₁.trace.length) s₁ bs ↔
      Machine.Guarded (step cfg) (fun t a => ¬ t.Restarts cfg w a) s₁ bs := by
  have hmanned := (State.manned_init cfg).exec hrun
  have hphase : s.phase = .reaping := by
    simp only [step, State.reap] at hs
    split at hs
    · assumption
    · cases hs
  have hbooted : ¬ s.phase.Boot := by
    rw [hphase]
    exact id
  have hshut : s₁.Shut cfg w s₁.trace.length :=
    ⟨hmanned.step hs, State.not_boot_step hbooted hs,
      hmanned.roster.vacant_of_foundOpen hopen hs, le_rfl, by simp [State.Unstarted]⟩
  refine Machine.always_iff_guarded hshut (fun t (ht : t.Shut cfg w _) => ht.unstarted) ?_ ?_
    hrest
  · exact fun t a t' ht hnot hs => ht.step hnot hs
  · exact fun t a t' ht hbad hs => ht.started (not_not.mp hbad) hs

/-- Worker 0 crashes three times within the window. -/
def trippedRun : List Action :=
  [.start { pid := some 10 } 7, .ready true, .start { pid := some 11 } 0,
    .start { pid := some 12 } 0, .start { pid := none } 0, .wake,
    .die 2 139, .reap 12 { fork := { pid := some 13 } },
    .die 3 139, .reap 13 { fork := { pid := some 14 } }, .die 4 139]

/-- The model cache crashes behind it, and the loop of its restart comes to worker 0. -/
def cacheRestart : List Action :=
  [.die 0 139, .reap 10 { fork := { pid := some 20 }, runNonce := 8 }, .ready true, .stop, .stop,
    .start { pid := some 15 } 0]

theorem tripped_foundOpen :
    (Machine.exec (step oneWorker) (init oneWorker) trippedRun).map (fun s => s.foundOpen 14 {}) =
      some (some 0) := by
  decide

theorem breaker_stays_open_idle :
    ∃ s s₁, Machine.exec (step oneWorker) (init oneWorker) trippedRun = some s ∧
      s.foundOpen 14 {} = some 0 ∧ step oneWorker s (.reap 14 {}) = some s₁ ∧
      Machine.Always (step oneWorker) (State.Unstarted 0 s₁.trace.length) s₁
        (cacheRestart.take 5) := by
  obtain ⟨s, hs, hopen⟩ := Option.map_eq_some_iff.mp tripped_foundOpen
  have hrun : ((Machine.exec (step oneWorker) (init oneWorker) trippedRun).bind fun s =>
      step oneWorker s (.reap 14 {})).any (fun s₁ =>
        (Machine.exec (step oneWorker) s₁ (cacheRestart.take 5)).isSome ∧
        Machine.Guarded (step oneWorker) (fun t a => ¬ t.Restarts oneWorker 0 a) s₁
          (cacheRestart.take 5)) = true := by
    decide
  rw [hs, Option.bind_some, Option.any_eq_true] at hrun
  obtain ⟨s₁, hs₁, hok⟩ := hrun
  obtain ⟨hsome, hguard⟩ := of_decide_eq_true hok
  obtain ⟨s₂, hs₂⟩ := Option.isSome_iff_exists.mp hsome
  exact ⟨s, s₁, hs, hopen, hs₁, (breaker_stays_open_iff hs hopen hs₁ hs₂).mpr hguard⟩

/-- The restart of the model cache starts a worker whose breaker is open. -/
theorem not_breaker_stays_open :
    ¬ ∀ (cfg : Config) (as bs : List Action) (s s₁ s₂ : State) (pid : ℕ) (r : Readings) (w : ℤ),
      Machine.exec (step cfg) (init cfg) as = some s → s.foundOpen pid r = some w →
      step cfg s (.reap pid r) = some s₁ → Machine.exec (step cfg) s₁ bs = some s₂ →
      s₂.Unstarted w s₁.trace.length := by
  intro hall
  obtain ⟨s, hs, hopen⟩ := Option.map_eq_some_iff.mp tripped_foundOpen
  have hrun : ((Machine.exec (step oneWorker) (init oneWorker) trippedRun).bind fun s =>
      step oneWorker s (.reap 14 {})).any (fun s₁ =>
        (Machine.exec (step oneWorker) s₁ cacheRestart).any fun s₂ =>
          .spawned 6 0 0 ∈ s₂.trace.drop s₁.trace.length) = true := by
    decide
  rw [hs, Option.bind_some, Option.any_eq_true] at hrun
  obtain ⟨s₁, hs₁, hrun⟩ := hrun
  rw [Option.any_eq_true] at hrun
  obtain ⟨s₂, hs₂, hspawned⟩ := hrun
  exact hall oneWorker trippedRun cacheRestart s s₁ s₂ 14 {} 0 hs hopen hs₁ hs₂ 6 0
    (of_decide_eq_true hspawned)

end ServeInfer.Supervisor
