import ServeInfer.Supervisor.OpenBreaker

/-!
# Workers that have gone

A reaped worker is announced to the api-server and replaced, unless its breaker
is open or its fork fails. What is left out are a worker that ended with status
0 and one that was stopped for a new model cache.
-/

namespace ServeInfer.Supervisor

namespace State

/-- The worker id for which the last fork of a step has failed. -/
def forkFailed (cfg : Config) (s : State) : Action → Option ℤ
  | .reap pid r =>
      (s.crashedChild pid r).bind fun (info, s) =>
        if info.type = .worker ∧ (s.askBreaker info r).1 = false ∧
            ((s.askBreaker info r).2.startWorker info.workerId r.fork).1 = false then
          some info.workerId
        else none
  | .start fork _ =>
      match s.phase with
      | .restarting next =>
          if next < cfg.effectiveWorkerCount ∧ s.workerPidById.has next = false ∧
              (s.startWorker next fork).1 = false then some next
          else none
      | _ => none
  | _ => none

/-- If the supervisor is running, the step tells the api-server of every worker that it reaps. -/
def AnnouncesDeaths (cfg : Config) (s : State) (a : Action) : Prop :=
  ∀ s', step cfg s a = some s' → s.running = true → ∀ c ∈ s.children, c.type = .worker →
    c.serial ∉ s'.children.map Child.serial →
      .notified .workerCrashed c.workerId ∈ s'.trace.drop s.trace.length

/-- While the supervisor is running, the step reaps a worker that left status 0, or one that was
stopped for a new model cache. -/
def SilentDeath (s : State) : Action → Prop
  | .reap pid _ =>
      s.running = true ∧ ∃ c ∈ s.children, c.pid = pid ∧ c.type = .worker ∧
        c.status.bind exitCode? = some 0
  | .waited => s.running = true
  | _ => False

instance (s : State) : (a : Action) → Decidable (s.SilentDeath a)
  | .reap pid _ => inferInstanceAs (Decidable (s.running = true ∧ ∃ c ∈ s.children,
      c.pid = pid ∧ c.type = .worker ∧ c.status.bind exitCode? = some 0))
  | .waited => inferInstanceAs (Decidable (s.running = true))
  | .beat .. => isFalse id
  | .die .. => isFalse id
  | .requestStop => isFalse id
  | .start .. => isFalse id
  | .ready _ => isFalse id
  | .reaped => isFalse id
  | .stop => isFalse id
  | .accept _ => isFalse id
  | .drained => isFalse id
  | .check _ => isFalse id
  | .wake => isFalse id

end State

/-- In the run the breaker of the worker id has been found open. -/
def BreakerOpened (cfg : Config) (as : List Action) (w : ℤ) : Prop :=
  ∃ pre pid r, pre ++ [.reap pid r] <+: as ∧
    ∃ t, Machine.exec (step cfg) (init cfg) pre = some t ∧ t.foundOpen pid r = some w

/-- In the run to `s` the last fork for the worker id has failed. -/
def LastForkFailed (cfg : Config) (as : List Action) (s : State) (w : ℤ) : Prop :=
  ∃ pre a, pre ++ [a] <+: as ∧
    ∃ t t', Machine.exec (step cfg) (init cfg) pre = some t ∧ step cfg t a = some t' ∧
      t.forkFailed cfg a = some w ∧ s.Unstarted w t'.trace.length

/-- Every worker id that is to have a process has a live one, or its breaker has opened, or its
last fork has failed. -/
def Covered (cfg : Config) (as : List Action) (s : State) : Prop :=
  ∀ k < cfg.effectiveWorkerCount,
    (∃ c ∈ s.children, c.type = .worker ∧ c.workerId = k ∧ c.status = none) ∨
      BreakerOpened cfg as k ∨ LastForkFailed cfg as s k

namespace State

variable {cfg : Config} {gone : ℕ → Prop} {only : ℤ → Prop} {s s' s₁ : State} {w : ℤ}
  {pid status length : ℕ} {r : Readings} {info : ProcessInfo} {fork : Fork} {as : List Action}

/-- No deed makes a stopped supervisor run. -/
theorem Deed.running (hd : Deed cfg gone only s s') (h : s'.running = true) :
    s.running = true := by
  cases hd with
  | aside ha => exact ha.running h
  | demoted i a reason ha hcuda hvacant heq =>
      subst heq
      exact h
  | singleton c hl ht hw htrace => exact hl.running ▸ h
  | staffed c now hf _ => exact hf.running ▸ h
  | left pid hl _ => exact hl.running ▸ h
  | ended serial status heq =>
      subst heq
      exact h

theorem Deeds.running (hds : Deeds cfg gone only s s') (h : s'.running = true) :
    s.running = true := by
  induction hds with
  | refl => exact h
  | tail _ hd ih => exact ih (hd.running h)

/-- A child stays, as what it was started as, unless its pid may go. -/
theorem Deed.stays (hd : Deed cfg gone only s s') {c : Child} (hc : c ∈ s.children)
    (hpid : ¬ gone c.pid) : ∃ d ∈ s'.children, d.pid = c.pid ∧ d.serial = c.serial ∧
      d.type = c.type ∧ d.workerId = c.workerId := by
  cases hd with
  | aside ha => exact ⟨c, ha.children ▸ hc, rfl, rfl, rfl, rfl⟩
  | demoted i a reason ha hcuda hvacant heq =>
      subst heq
      exact ⟨c, hc, rfl, rfl, rfl, rfl⟩
  | singleton d hl ht hw htrace =>
      exact ⟨c, hl.children ▸ List.mem_append_left _ hc, rfl, rfl, rfl, rfl⟩
  | staffed d now hf _ =>
      exact ⟨c, hf.children ▸ List.mem_append_left _ hc, rfl, rfl, rfl, rfl⟩
  | left pid hl hgone =>
      have hne : c.pid ≠ pid := fun heq => hpid (heq ▸ hgone)
      exact ⟨c, hl.children ▸ List.mem_filter.mpr ⟨hc, decide_eq_true hne⟩, rfl, rfl, rfl, rfl⟩
  | ended serial status heq =>
      subst heq
      exact ⟨endChild serial status c, List.mem_map_of_mem hc, endChild_pid .., endChild_serial ..,
        endChild_type .., endChild_workerId ..⟩

theorem Deeds.stays (hds : Deeds cfg gone only s s') {c : Child} (hc : c ∈ s.children)
    (hpid : ¬ gone c.pid) : ∃ d ∈ s'.children, d.pid = c.pid ∧ d.serial = c.serial ∧
      d.type = c.type ∧ d.workerId = c.workerId := by
  induction hds with
  | refl => exact ⟨c, hc, rfl, rfl, rfl, rfl⟩
  | tail _ hd ih =>
      obtain ⟨d, hd', hdp, hds, hdt, hdw⟩ := ih
      obtain ⟨e, he, hep, hes, het, hew⟩ := hd.stays hd' (hdp ▸ hpid)
      exact ⟨e, he, hep.trans hdp, hes.trans hds, het.trans hdt, hew.trans hdw⟩

theorem startWorker_false (h : s.startWorker w fork = (false, s')) : s' = s := by
  unfold startWorker at h
  obtain hfail | ⟨p, -, hfork⟩ := forkExec_cases s fork.pid (s.newWorker w)
  · rw [hfail] at h
    exact (Prod.mk.inj h).2.symm
  · rw [hfork] at h
    cases h

theorem startWorker_true (h : s.startWorker w fork = (true, s')) :
    ∃ c, s'.children = s.children ++ [c] ∧ c.type = .worker ∧ c.workerId = w ∧
      s'.trace = s.trace ++ [.spawned c.serial w fork.now] := by
  unfold startWorker at h
  obtain hfail | ⟨p, -, hfork⟩ := forkExec_cases s fork.pid (s.newWorker w)
  · rw [hfail] at h
    cases h
  · rw [hfork] at h
    obtain rfl := (Prod.mk.inj h).2
    exact ⟨_, rfl, rfl, rfl, rfl⟩

/-- A successful reassignment is announced and leaves a worker. -/
theorem handleWorkerReassignment_true
    (h : s.handleWorkerReassignment info status fork = (true, s')) :
    .notified .workerCrashed info.workerId ∈ s'.trace.drop s.trace.length ∧
      ∃ d ∈ s'.children, d.type = .worker ∧ d.workerId = info.workerId := by
  unfold handleWorkerReassignment at h
  split at h
  · cases h
  · split at h
    · cases h
    · split at h
      · dsimp only at h
        split at h
        · cases h
        · rename_i heq
          cases h
          obtain ⟨c, hchildren, ht, hid, htrace⟩ := startWorker_true heq
          constructor
          · simp only [notifyApiServer, log] at htrace ⊢
            rw [htrace]
            simp
          · exact ⟨c, hchildren ▸ List.mem_append_right _ (List.mem_singleton_self c), ht, hid⟩
      · cases h

theorem running_startWorker (s : State) (w : ℤ) (fork : Fork) :
    (s.startWorker w fork).2.running = s.running := by
  unfold startWorker
  obtain hfail | ⟨p, -, hfork⟩ := forkExec_cases s fork.pid (s.newWorker w)
  · rw [hfail]
  · rw [hfork]

theorem running_handleWorkerReassignment (s : State) (info : ProcessInfo) (status : ℕ)
    (fork : Fork) : (s.handleWorkerReassignment info status fork).2.running = s.running := by
  unfold handleWorkerReassignment
  split
  · rfl
  · split
    · rfl
    · split
      · dsimp only
        split <;> rename_i heq
        · exact (congrArg (State.running ∘ Prod.snd) heq).symm.trans (running_startWorker _ _ _)
        · exact (congrArg (State.running ∘ Prod.snd) heq).symm.trans (running_startWorker _ _ _)
      · rfl

theorem running_forget (s : State) (info : ProcessInfo) : (s.forget info).running = s.running := by
  unfold forget
  dsimp only
  split <;> rfl

/-- A reaped process that left no status 0 is replaced by its reassignment or goes on to the
breaker. -/
theorem Roster.reap_cases (h : s.Roster cfg) {c : Child} (hc : c ∈ s.children)
    (hstatus : c.status = some status) (hexit : exitCode? status ≠ some 0)
    (hrunning : s.running = true) (hs : s.reap c.pid r = some s') :
    (∃ s₀ : State, s₀.trace = s.trace ∧ s₀.handleWorkerReassignment c.info status r.reassignFork =
        (true, s')) ∨
      ∃ s₁, s.crashedChild c.pid r = some (c.info, s₁) := by
  have hfind : s.children.find? (fun d => d.pid = c.pid) = some c := by
    obtain ⟨d, hd⟩ : ∃ d, s.children.find? (fun d => d.pid = c.pid) = some d :=
      Option.isSome_iff_exists.mp (List.find?_isSome.mpr ⟨c, hc, decide_eq_true rfl⟩)
    have hdp : d.pid = c.pid := by simpa using List.find?_some hd
    rw [hd, List.inj_on_of_nodup_map h.pids (List.mem_of_find?_eq_some hd) hc hdp]
  have hentry : (s.unlist c.pid).processesByPid.get? c.pid = some c.info := h.entry hc
  cases hre : ((s.unlist c.pid).forget c.info).handleWorkerReassignment c.info status
      r.reassignFork with
  | mk restarted s₁ =>
      cases restarted with
      | true =>
          refine .inl ⟨(s.unlist c.pid).forget c.info, (h.left_forget hc).trace, ?_⟩
          unfold reap at hs
          rw [hfind] at hs
          split at hs
          · rename_i d _ hsame
            obtain rfl := Option.some.inj hsame
            rw [hstatus, Option.map_some, Option.some.injEq] at hs
            simp only [handleCrash, hentry, if_neg hexit, hre] at hs
            rw [hre, hs]
          · cases hs
      | false =>
          refine .inr ⟨s₁.writeCrashLog c.info status r, ?_⟩
          have hrun : (s₁.writeCrashLog c.info status r).running = true := by
            have hreassign := running_handleWorkerReassignment ((s.unlist c.pid).forget c.info)
              c.info status r.reassignFork
            rw [hre, running_forget] at hreassign
            have hlog : (s₁.writeCrashLog c.info status r).running = s₁.running := by
              unfold writeCrashLog
              split <;> rfl
            exact hlog.trans (hreassign.trans hrunning)
          simp only [crashedChild, hfind, hstatus, Option.bind_some, crashed, hentry,
            if_neg hexit, hre, hrun, Bool.true_eq_false, if_false]

/-- What a step has told the api-server stays told. -/
theorem notified_mono {e : Event} (hpre : s₁.trace <+: s'.trace)
    (h : e ∈ s₁.trace.drop length) : e ∈ s'.trace.drop length := by
  obtain ⟨es, hes⟩ := hpre
  rw [← hes, List.drop_append]
  exact List.mem_append_left _ h

/-- A crashed worker is announced, and then replaced, or its breaker is open, or its fork fails. -/
theorem restartCrashed_outcome (ht : info.type = .worker) (hpre : s.trace <+: s₁.trace) :
    .notified .workerCrashed info.workerId ∈
        (s₁.restartCrashed info r).trace.drop s.trace.length ∧
      ((∃ d ∈ (s₁.restartCrashed info r).children, d.type = .worker ∧
          d.workerId = info.workerId) ∨
        (s₁.askBreaker info r).1 = true ∨
        (s₁.askBreaker info r).1 = false ∧
          ((s₁.askBreaker info r).2.startWorker info.workerId r.fork).1 = false) := by
  have htold : .notified .workerCrashed info.workerId ∈
      (s₁.askBreaker info r).2.trace.drop s.trace.length := by
    obtain ⟨es, hes⟩ := hpre
    have htrace : (s₁.askBreaker info r).2.trace =
        s₁.trace ++ [.notified .workerCrashed info.workerId] := rfl
    rw [htrace, ← hes, List.append_assoc, List.drop_left]
    simp
  rw [restartCrashed_worker ht]
  cases hask : s₁.askBreaker info r with
  | mk opened s₂ =>
      rw [hask] at htold
      cases opened with
      | true => exact ⟨htold, .inr (.inl rfl)⟩
      | false =>
          cases hstart : s₂.startWorker info.workerId r.fork with
          | mk started s₃ =>
              cases started with
              | false =>
                  obtain rfl := startWorker_false hstart
                  simp only [hstart]
                  exact ⟨htold, .inr (.inr ⟨trivial, trivial⟩)⟩
              | true =>
                  obtain ⟨d, hchildren, hdt, hdw, htrace⟩ := startWorker_true hstart
                  refine ⟨notified_mono ?_ htold, .inl ⟨d, ?_, hdt, hdw⟩⟩
                  · simp only [hstart, notifyApiServer, log, htrace, List.append_assoc]
                    exact List.prefix_append _ _
                  · simp only [hstart, notifyApiServer, log, hchildren]
                    exact List.mem_append_right _ (List.mem_singleton_self d)

/-- The trace behind a reassignment that does not replace the worker begins with the one before. -/
theorem Roster.crashedChild_grows (h : s.Roster cfg)
    (hchild : s.crashedChild pid r = some (info, s₁)) : s.trace <+: s₁.trace := by
  obtain ⟨c, hc, rfl, -, status, -, hcrashed⟩ := crashedChild_eq_some hchild
  obtain ⟨-, hdeeds, -⟩ := h.crashed_owed hc hcrashed
  have hsame : ((s.unlist c.pid).forget c.info).trace = s.trace := (h.left_forget hc).trace
  rw [← hsame]
  exact hdeeds.trace_grows

/-- A running supervisor announces a worker that it reaps with another status than 0, and replaces
it, or finds its breaker open, or fails to fork. -/
theorem Roster.reaped_worker (h : s.Roster cfg) {c : Child} (hc : c ∈ s.children)
    (ht : c.type = .worker) (hexit : c.status.bind exitCode? ≠ some 0)
    (hrunning : s.running = true) (hs : s.reap c.pid r = some s') :
    .notified .workerCrashed c.workerId ∈ s'.trace.drop s.trace.length ∧
      ((∃ d ∈ s'.children, d.type = .worker ∧ d.workerId = c.workerId) ∨
        s.foundOpen c.pid r = some c.workerId ∨
        s.forkFailed cfg (.reap c.pid r) = some c.workerId) := by
  obtain ⟨status, hstatus⟩ : ∃ status, c.status = some status := by
    unfold reap at hs
    split at hs
    · rename_i d _ hfind
      have hdp : d.pid = c.pid := by simpa using List.find?_some hfind
      obtain rfl := List.inj_on_of_nodup_map h.pids (List.mem_of_find?_eq_some hfind) hc hdp
      obtain ⟨status, hstatus, -⟩ := Option.map_eq_some_iff.mp hs
      exact ⟨status, hstatus⟩
    · cases hs
  rw [hstatus, Option.bind_some] at hexit
  obtain ⟨s₀, htrace, hre⟩ | ⟨s₁, hchild⟩ := h.reap_cases hc hstatus hexit hrunning hs
  · obtain ⟨htold, hworker⟩ := handleWorkerReassignment_true hre
    exact ⟨htrace ▸ htold, .inl hworker⟩
  · have hinfo : c.info.type = .worker := ht
    obtain ⟨htold, houtcome⟩ :=
      restartCrashed_outcome (r := r) hinfo (h.crashedChild_grows hchild)
    rw [← reap_crashed hchild hs] at htold houtcome
    refine ⟨htold, ?_⟩
    obtain hworker | hopen | hfailed := houtcome
    · exact .inl hworker
    · refine .inr (.inl ?_)
      simp only [foundOpen, hchild, Option.bind_some]
      exact if_pos ⟨ht, hopen⟩
    · refine .inr (.inr ?_)
      simp only [forkFailed, hchild, Option.bind_some]
      exact if_pos ⟨ht, hfailed⟩

/-- A turn of a loop that starts workers has left one for the id, or its fork has failed. -/
theorem startNext_restarting {fork : Fork} {runNonce next : ℕ}
    (hphase : s.phase = .restarting next) (hlt : next < cfg.effectiveWorkerCount)
    (hvacant : s.Vacant next) (hs : s.startNext cfg fork runNonce = some s') :
    (∃ d ∈ s'.children, d.type = .worker ∧ d.workerId = next) ∨
      s.forkFailed cfg (.start fork runNonce) = some (next : ℤ) := by
  have hhas : s.workerPidById.has next = false := by
    rw [← Bool.not_eq_true, OrderedMap.has_iff, ← OrderedMap.get?_eq_none_iff]
    exact hvacant
  cases hstart : s.startWorker next fork with
  | mk started s₁ =>
      cases started with
      | false =>
          refine .inr ?_
          simp only [forkFailed, hphase]
          exact if_pos ⟨hlt, hhas, congrArg Prod.fst hstart⟩
      | true =>
          obtain ⟨d, hchildren, hdt, hdw, -⟩ := startWorker_true hstart
          refine .inl ⟨d, ?_, hdt, hdw⟩
          simp only [startNext, hphase, if_pos hlt, hhas, Bool.false_eq_true, if_false,
            restartWorker, hstart, Option.some.injEq] at hs
          subst hs
          exact hchildren ▸ List.mem_append_right _ (List.mem_singleton_self d)

theorem waited_eq_some (hs : s.waited = some s') : ∃ (next pid : ℕ),
    s.workerPidById.get? next = some pid ∧
      s' = (s.stopWorker next pid).enter (.stopping (next + 1)) := by
  unfold waited at hs
  split at hs
  · split at hs
    · rename_i hpid
      split at hs <;> cases hs
      exact ⟨_, _, hpid, rfl⟩
    · cases hs
  · cases hs

/-- How many worker ids are to have a process. -/
def needed (cfg : Config) : Phase → ℕ
  | .startCache | .startReady | .startApi | .exited => 0
  | .startWorkers next => next
  | _ => cfg.effectiveWorkerCount

/-- A step asks for no more ids than before, or for the one it has just started a worker for. -/
theorem needed_step {a : Action} (hs : Supervisor.step cfg s a = some s') :
    needed cfg s'.phase ≤ needed cfg s.phase ∨
      ∃ next, needed cfg s.phase = next ∧ needed cfg s'.phase = next + 1 ∧
        ∃ d ∈ s'.children, d.type = .worker ∧ d.workerId = next := by
  cases a with
  | beat serial busyMs device =>
      simp only [Supervisor.step, beat] at hs
      split at hs
      · cases hs
      · split at hs <;> cases hs
        exact .inl le_rfl
  | die serial status =>
      cases hs
      exact .inl le_rfl
  | requestStop =>
      cases hs
      exact .inl le_rfl
  | start fork runNonce =>
      simp only [Supervisor.step, State.startNext] at hs
      split at hs <;> rename_i hphase
      · split at hs <;> cases hs
        · exact .inl (Nat.zero_le _)
        · exact .inl (Nat.zero_le _)
      · split at hs <;> cases hs
        · exact .inl (Nat.zero_le _)
        · exact .inl (Nat.zero_le _)
      · split at hs
        · split at hs <;> rename_i heq <;> cases hs
          · obtain ⟨d, hchildren, hdt, hdw, -⟩ := startWorker_true heq
            refine .inr ⟨_, by rw [hphase, needed], rfl, d, ?_, hdt, hdw⟩
            exact hchildren ▸ List.mem_append_right _ (List.mem_singleton_self d)
          · exact .inl (Nat.zero_le _)
        · rename_i hge
          cases hs
          rw [hphase]
          exact .inl (not_lt.mp hge)
      · split at hs <;> cases hs <;> rw [hphase] <;> exact .inl le_rfl
      · cases hs
  | ready observed =>
      simp only [Supervisor.step, observeReady] at hs
      split at hs <;> rename_i hphase <;> cases hs <;> rw [hphase] <;> cases observed
      · exact .inl le_rfl
      · exact .inl le_rfl
      · exact .inl le_rfl
      · exact .inl le_rfl
  | reap pid r =>
      simp only [Supervisor.step, reap] at hs
      split at hs
      · rename_i c hphase _
        obtain ⟨status, -, rfl⟩ := Option.map_eq_some_iff.mp hs
        obtain hsame | hcache := phase_handleCrash (s.unlist pid) pid status r
        · exact .inl (hsame ▸ le_rfl)
        · rw [hcache, hphase]
          exact .inl le_rfl
      · cases hs
  | stop =>
      simp only [Supervisor.step, stopNext] at hs
      split at hs
      · rename_i hphase
        split at hs
        · split at hs <;> cases hs <;> rw [hphase] <;> exact .inl le_rfl
        · cases hs
          rw [hphase]
          exact .inl le_rfl
      · cases hs
  | waited =>
      simp only [Supervisor.step, waited] at hs
      split at hs
      · rename_i hphase
        split at hs
        · split at hs <;> cases hs
          rw [hphase]
          exact .inl le_rfl
        · cases hs
      · cases hs
  | accept now =>
      simp only [Supervisor.step, accept] at hs
      split at hs
      · cases hs
        rw [phase_readConnection]
        exact .inl le_rfl
      · cases hs
  | reaped =>
      obtain ⟨⟨hphase, -⟩, hs⟩ := Option.ite_none_right_eq_some.mp hs
      cases hs
      rw [hphase]
      exact .inl le_rfl
  | drained =>
      obtain ⟨hphase, hs⟩ := Option.ite_none_right_eq_some.mp hs
      cases hs
      rw [hphase]
      exact .inl le_rfl
  | check now =>
      obtain ⟨hphase, hs⟩ := Option.ite_none_right_eq_some.mp hs
      cases hs
      rw [hphase]
      exact .inl le_rfl
  | wake =>
      obtain ⟨hphase, hs⟩ := Option.ite_none_right_eq_some.mp hs
      cases hs
      rw [hphase]
      cases s.running
      · exact .inl (Nat.zero_le _)
      · exact .inl le_rfl

end State

variable {cfg : Config} {s s' : State} {a : Action} {as : List Action} {w : ℤ} {k pid : ℕ}
  {r : Readings}

theorem BreakerOpened.mono (h : BreakerOpened cfg as w) : BreakerOpened cfg (as ++ [a]) w := by
  obtain ⟨pre, pid, r, hpre, hfound⟩ := h
  exact ⟨pre, pid, r, hpre.trans (List.prefix_append as [a]), hfound⟩

theorem breakerOpened_now (hrun : Machine.exec (step cfg) (init cfg) as = some s)
    (h : s.foundOpen pid r = some w) : BreakerOpened cfg (as ++ [.reap pid r]) w :=
  ⟨as, pid, r, List.prefix_refl _, s, hrun, h⟩

theorem LastForkFailed.mono (h : LastForkFailed cfg as s w)
    (hkeep : ∀ length, s.Unstarted w length → s'.Unstarted w length) :
    LastForkFailed cfg (as ++ [a]) s' w := by
  obtain ⟨pre, b, hpre, t, t', hrun, hs, hfailed, hun⟩ := h
  exact ⟨pre, b, hpre.trans (List.prefix_append as [a]), t, t', hrun, hs, hfailed, hkeep _ hun⟩

theorem lastForkFailed_now (hrun : Machine.exec (step cfg) (init cfg) as = some s)
    (hs : step cfg s a = some s') (h : s.forkFailed cfg a = some w) :
    LastForkFailed cfg (as ++ [a]) s' w :=
  ⟨as, a, List.prefix_refl _, s, s', hrun, hs, h, by simp [State.Unstarted]⟩

/-- The worker id has an unreaped process, or there is a reason why not. -/
def Accounted (cfg : Config) (as : List Action) (s : State) (w : ℤ) : Prop :=
  (∃ c ∈ s.children, c.type = .worker ∧ c.workerId = w) ∨
    BreakerOpened cfg as w ∨ LastForkFailed cfg as s w

/-- A step of the running supervisor in which no worker dies silently keeps the account. -/
theorem Accounted.step (h : Accounted cfg as s k)
    (hrun : Machine.exec (Supervisor.step cfg) (init cfg) as = some s)
    (hs : Supervisor.step cfg s a = some s') (hrunning : s.running = true)
    (hnot : ¬ s.SilentDeath a) (hk : k < State.needed cfg s.phase) :
    Accounted cfg (as ++ [a]) s' k := by
  have hm := (State.manned_init cfg).exec hrun
  have hdeeds := hm.roster.deeds_of_step hm.bootIds hs
  by_cases hchild : ∃ c ∈ s.children, c.type = .worker ∧ c.workerId = k
  · obtain ⟨c, hc, ht, hid⟩ := hchild
    by_cases hends : s.Ends a c.pid
    · unfold State.Ends at hends
      split at hends
      · rename_i r _
        subst hends
        have hexit : c.status.bind exitCode? ≠ some 0 := fun hzero =>
          hnot ⟨hrunning, c, hc, rfl, ht, hzero⟩
        obtain ⟨-, hworker | hopen | hfailed⟩ :=
          hm.roster.reaped_worker hc ht hexit hrunning hs
        · exact .inl (hid ▸ hworker)
        · exact .inr (.inl (breakerOpened_now hrun (hid ▸ hopen)))
        · exact .inr (.inr (lastForkFailed_now hrun hs (hid ▸ hfailed)))
      · exact absurd hrunning hnot
      · exact hends.elim
    · obtain ⟨d, hd, -, -, hdt, hdw⟩ := hdeeds.stays hc hends
      exact .inl ⟨d, hd, hdt.trans ht, hdw.trans hid⟩
  · have hvacant : s.Vacant k := hm.roster.vacant_of fun c hc ht hid => hchild ⟨c, hc, ht, hid⟩
    by_cases hstarts : s.Starts a k
    · unfold State.Starts at hstarts
      split at hstarts
      · rename_i next hphase
        have hlt : k < next := by simpa only [hphase, State.needed] using hk
        omega
      · rename_i fork runNonce next hphase
        have hlt : k < cfg.effectiveWorkerCount := by
          simpa only [hphase, State.needed] using hk
        obtain rfl := Int.ofNat_inj.mp hstarts
        obtain hworker | hfailed := State.startNext_restarting hphase hlt hvacant hs
        · exact .inl hworker
        · exact .inr (.inr (lastForkFailed_now hrun hs hfailed))
      · rw [hvacant] at hstarts
        cases hstarts
      · exact hstarts.elim
    · obtain hworker | hopened | hfailed := h
      · exact absurd hworker hchild
      · exact .inr (.inl hopened.mono)
      · refine .inr (.inr (hfailed.mono fun length hun => ?_))
        exact hdeeds.invariant (fun t _ (ht : t.Unstarted k length) hd => ht.deed hstarts hd) hun

/-- In a run in which no worker dies silently every needed id is accounted for while the
supervisor is running. -/
theorem accounted_of_guarded
    (hrun : Machine.exec (step cfg) (init cfg) as = some s)
    (hg : Machine.Guarded (step cfg) (fun t a => ¬ t.SilentDeath a) (init cfg) as)
    (hrunning : s.running = true) (hk : k < State.needed cfg s.phase) : Accounted cfg as s k := by
  induction as using List.reverseRecOn generalizing s k with
  | nil =>
      cases hrun
      exact absurd hk (Nat.not_lt_zero k)
  | append_singleton as a ih =>
      rw [Machine.exec_snoc] at hrun
      obtain ⟨t, ht, hs⟩ := Option.bind_eq_some_iff.mp hrun
      have hm := (State.manned_init cfg).exec ht
      have hdeeds := hm.roster.deeds_of_step hm.bootIds hs
      have hrunning' := hdeeds.running hrunning
      have hbefore {j : ℕ} := ih (k := j) ht (hg.restrict (List.prefix_append as [a])) hrunning'
      have hnot := hg as a (List.prefix_refl _) t ht
      obtain hle | ⟨next, hold, hnew, hworker⟩ := State.needed_step hs
      · exact (hbefore (hk.trans_le hle)).step ht hs hrunning' hnot (hk.trans_le hle)
      · rw [hnew] at hk
        obtain hlt | heq := Nat.lt_or_eq_of_le (Nat.le_of_lt_succ hk)
        · rw [← hold] at hlt
          exact (hbefore hlt).step ht hs hrunning' hnot hlt
        · subst heq
          exact .inl hworker

/-- A completed pass has left no ended child. -/
theorem covered_of_accounted (hrun : Machine.exec (step cfg) (init cfg) (as ++ [.reaped]) = some s)
    (h : ∀ k < cfg.effectiveWorkerCount, Accounted cfg (as ++ [.reaped]) s k) :
    Covered cfg (as ++ [.reaped]) s := by
  rw [Machine.exec_snoc] at hrun
  obtain ⟨t, -, hs⟩ := Option.bind_eq_some_iff.mp hrun
  obtain ⟨⟨-, hlive⟩, hs⟩ := Option.ite_none_right_eq_some.mp hs
  cases hs
  intro k hk
  obtain ⟨c, hc, ht, hid⟩ | hreason := h k hk
  · exact .inl ⟨c, hc, ht, hid, hlive c hc⟩
  · exact .inr hreason

/-- Every worker is announced in a step in which none dies silently. -/
theorem State.Manned.announces (hm : s.Manned cfg) (hnot : ¬ s.SilentDeath a) :
    s.AnnouncesDeaths cfg a := by
  intro s' hs hrunning c hc ht hgone
  have hends : s.Ends a c.pid := by
    by_contra hstays
    obtain ⟨d, hd, -, hserial, -⟩ :=
      (hm.roster.deeds_of_step hm.bootIds hs).stays hc hstays
    exact hgone (List.mem_map.mpr ⟨d, hd, hserial⟩)
  unfold State.Ends at hends
  split at hends
  · subst hends
    exact (hm.roster.reaped_worker hc ht
      (fun hzero => hnot ⟨hrunning, c, hc, rfl, ht, hzero⟩) hrunning hs).1
  · exact absurd hrunning hnot
  · exact hends.elim

/-- A worker that dies silently is not announced. -/
theorem State.Manned.not_announces (hm : s.Manned cfg) (hb : s.Books) (hsilent : s.SilentDeath a)
    (hs : Supervisor.step cfg s a = some s') : ¬ s.AnnouncesDeaths cfg a := by
  have hgone : ∀ {c : Child}, c ∈ s.children →
      c.serial ∉ (s.children.filter fun d => d.pid ≠ c.pid).map Child.serial := by
    intro c hc hmem
    obtain ⟨d, hd, hserial⟩ := List.mem_map.mp hmem
    obtain ⟨hd, hne⟩ := List.mem_filter.mp hd
    obtain rfl := List.inj_on_of_nodup_map hb.serials hd hc hserial
    exact (of_decide_eq_true hne) rfl
  intro hann
  cases a with
  | reap pid r =>
      obtain ⟨hrunning, c, hc, rfl, ht, hzero⟩ := hsilent
      obtain ⟨status, hstatus, hexit⟩ := Option.bind_eq_some_iff.mp hzero
      have hentry : (s.unlist c.pid).processesByPid.get? c.pid = some c.info := hm.roster.entry hc
      have hleft := hm.roster.left_forget hc
      have hs' : s' = (s.unlist c.pid).forget c.info := by
        simp only [Supervisor.step, State.reap] at hs
        split at hs
        · rename_i d _ hfind
          have hdp : d.pid = c.pid := by simpa using List.find?_some hfind
          obtain rfl := List.inj_on_of_nodup_map hm.roster.pids
            (List.mem_of_find?_eq_some hfind) hc hdp
          rw [hstatus, Option.map_some, Option.some.injEq] at hs
          simp only [State.handleCrash, hentry, if_pos hexit] at hs
          exact hs.symm
        · cases hs
      have htold := hann s' hs hrunning c hc ht (by
        rw [hs', hleft.children]
        exact hgone hc)
      rw [hs', hleft.trace, List.drop_length] at htold
      exact List.not_mem_nil htold
  | waited =>
      obtain ⟨next, pid, hpid, hs'⟩ := State.waited_eq_some hs
      obtain ⟨c, hc, rfl, ht, -⟩ := hm.roster.mapped.mp hpid
      have htold := hann s' hs hsilent c hc ht (by
        rw [hs']
        exact hgone hc)
      have htrace : s'.trace = s.trace := by rw [hs']; rfl
      rw [htrace, List.drop_length] at htold
      exact List.not_mem_nil htold
  | _ => exact hsilent

/-- In a run of the supervisor every reaped worker is announced, and after every completed pass of
`reapChildren` every worker id is covered, while the supervisor is running, exactly if meanwhile
it reaps no worker that left status 0 and none that it stopped for a new model cache. -/
theorem worker_coverage_iff (hrun : Machine.exec (step cfg) (init cfg) as = some s) :
    (Machine.Guarded (step cfg) (State.AnnouncesDeaths cfg) (init cfg) as ∧
      ∀ pre t, pre ++ [.reaped] <+: as →
        Machine.exec (step cfg) (init cfg) (pre ++ [.reaped]) = some t → t.running = true →
          Covered cfg (pre ++ [.reaped]) t) ↔
      Machine.Guarded (step cfg) (fun t a => ¬ t.SilentDeath a) (init cfg) as := by
  constructor
  · rintro ⟨hann, -⟩ pre a hpre t ht hsilent
    obtain ⟨t', ht'⟩ := Machine.exec_prefix hpre hrun
    rw [Machine.exec_snoc, ht, Option.bind_some] at ht'
    have hm := (State.manned_init cfg).exec ht
    exact hm.not_announces (orderly_of_exec ht).books hsilent ht' (hann pre a hpre t ht)
  · intro hg
    constructor
    · intro pre a hpre t ht
      exact ((State.manned_init cfg).exec ht).announces (hg pre a hpre t ht)
    · intro pre t hpre ht hrunning
      apply covered_of_accounted ht
      intro k hk
      have hphase : State.needed cfg t.phase = cfg.effectiveWorkerCount := by
        rw [Machine.exec_snoc] at ht
        obtain ⟨u, -, hs⟩ := Option.bind_eq_some_iff.mp ht
        obtain ⟨-, hs⟩ := Option.ite_none_right_eq_some.mp hs
        cases hs
        rfl
      exact accounted_of_guarded ht (hg.restrict hpre) hrunning (hphase ▸ hk)

/-- Worker 0 comes up, ends with the given wait status, and the pass reaps it. -/
def reapedRun (status : ℕ) : List Action :=
  [.start { pid := some 10 } 7, .ready true, .start { pid := some 11 } 0,
    .start { pid := some 12 } 0, .start { pid := none } 0, .wake, .die 2 status,
    .reap 12 { fork := { pid := some 13 } }, .reaped]

theorem worker_coverage_crash :
    Machine.Guarded (step oneWorker) (State.AnnouncesDeaths oneWorker) (init oneWorker)
        (reapedRun 139) ∧
      ∀ pre t, pre ++ [.reaped] <+: reapedRun 139 →
        Machine.exec (step oneWorker) (init oneWorker) (pre ++ [.reaped]) = some t →
          t.running = true → Covered oneWorker (pre ++ [.reaped]) t :=
  (worker_coverage_iff (Option.some_get (by decide)).symm).mpr (by decide)

/-- A worker that returns 0 after a signal is neither announced nor replaced. -/
theorem not_worker_coverage :
    ¬ ∀ (cfg : Config) (as : List Action) (s : State),
      Machine.exec (step cfg) (init cfg) as = some s →
      Machine.Guarded (step cfg) (State.AnnouncesDeaths cfg) (init cfg) as ∧
        ∀ pre t, pre ++ [.reaped] <+: as →
          Machine.exec (step cfg) (init cfg) (pre ++ [.reaped]) = some t → t.running = true →
            Covered cfg (pre ++ [.reaped]) t := by
  intro hall
  have hrun : (Machine.exec (step oneWorker) (init oneWorker) (reapedRun 0)).any
      (fun s => s.running ∧ ∀ c ∈ s.children, c.type ≠ .worker) = true := by
    decide
  have hshut : Machine.Guarded (step oneWorker)
      (fun t a => (match a with | .reap pid r => t.foundOpen pid r | _ => none) = none)
      (init oneWorker) (reapedRun 0) := by
    decide
  have hforked : Machine.Guarded (step oneWorker) (fun t a => t.forkFailed oneWorker a = none)
      (init oneWorker) (reapedRun 0) := by
    decide
  rw [Option.any_eq_true] at hrun
  obtain ⟨s, hs, hok⟩ := hrun
  obtain ⟨hrunning, hnone⟩ := of_decide_eq_true hok
  obtain ⟨c, hc, ht, -⟩ | ⟨pre, pid, r, hpre, t, ht, hopen⟩ |
      ⟨pre, a, hpre, t, -, ht, -, hfork, -⟩ :=
    (hall oneWorker (reapedRun 0) s hs).2 ((reapedRun 0).take 8) s (List.prefix_refl _) hs hrunning
      0 (by decide)
  · exact hnone c hc ht
  · cases hopen.symm.trans (hshut pre _ hpre t ht)
  · cases hfork.symm.trans (hforked pre a hpre t ht)

end ServeInfer.Supervisor
