import ServeInfer.Supervisor.Moves

/-!
# Every step of the supervisor

From orderly books every step but the reading of a heartbeat is a chain of
moves, and a heartbeat is entered for the worker id that its sender was started
for. So the books stay in order in every run.
-/

namespace ServeInfer.Supervisor

namespace State

variable {cfg : Config} {s s' s₀ : State} {w : ℤ} {pid : ℕ} {busyMs : Option ℤ} {device : String}

/-- At most one model cache is among the children, and it has the nonce of its start. -/
structure OneCache (s : State) : Prop where
  unique : ∀ c ∈ s.children, ∀ d ∈ s.children, c.type = .modelCache → d.type = .modelCache →
    c.pid = d.pid
  nonce : ∀ c ∈ s.children, c.type = .modelCache → c.runNonce = s.runNonce

theorem OneCache.move (h : s.OneCache) (hm : Move cfg s s') : s'.OneCache := by
  cases hm with
  | aside ha => exact ⟨ha.children ▸ h.unique, ha.children ▸ ha.runNonce ▸ h.nonce⟩
  | enter phase _ heq =>
      subst heq
      exact ⟨h.unique, h.nonce⟩
  | renonce runNonce hfree heq =>
      subst heq
      exact ⟨h.unique, fun c hc ht => absurd ht (hfree c hc)⟩
  | singleton c hf =>
      refine ⟨?_, ?_⟩
      · intro d hd e he hdt het
        rw [hf.children, List.mem_append, List.mem_singleton] at hd he
        rcases hd with hd | rfl <;> rcases he with he | rfl
        · exact h.unique d hd e he hdt het
        · exact absurd hdt ((hf.alone het).1 d hd)
        · exact absurd het ((hf.alone hdt).1 e he)
        · rfl
      · intro d hd hdt
        rw [hf.children, List.mem_append, List.mem_singleton] at hd
        rw [hf.runNonce]
        rcases hd with hd | rfl
        · exact h.nonce d hd hdt
        · exact (hf.alone hdt).2
  | worker c now hf =>
      have hold : ∀ d ∈ s'.children, d.type = .modelCache → d ∈ s.children := by
        intro d hd hdt
        rw [hf.children, List.mem_append, List.mem_singleton] at hd
        refine hd.resolve_right ?_
        rintro rfl
        rw [hf.type] at hdt
        cases hdt
      refine ⟨fun d hd e he hdt het => h.unique d (hold d hd hdt) e (hold e he het) hdt het, ?_⟩
      intro d hd hdt
      rw [hf.runNonce]
      exact h.nonce d (hold d hd hdt) hdt
  | removed pid hr =>
      have hold : ∀ d ∈ s'.children, d ∈ s.children := fun d hd =>
        (List.mem_filter.mp (hr.children ▸ hd)).1
      refine ⟨fun d hd e he => h.unique d (hold d hd) e (hold e he), fun d hd hdt => ?_⟩
      rw [hr.runNonce]
      exact h.nonce d (hold d hd) hdt
  | killed w pid health now hk =>
      rw [hk.eq]
      exact ⟨h.unique, h.nonce⟩
  | sent conn _ heq =>
      subst heq
      exact ⟨h.unique, h.nonce⟩
  | ended serial status heq =>
      subst heq
      refine ⟨?_, ?_⟩
      · intro d hd e he hdt het
        obtain ⟨c, hc, rfl⟩ := List.mem_map.mp hd
        obtain ⟨c', hc', rfl⟩ := List.mem_map.mp he
        simp only [endChild_pid, endChild_type] at hdt het ⊢
        exact h.unique c hc c' hc' hdt het
      · intro d hd hdt
        obtain ⟨c, hc, rfl⟩ := List.mem_map.mp hd
        rw [endChild_runNonce]
        exact h.nonce c hc (by rwa [endChild_type] at hdt)

/-- The supervisor before its first fork has no children. -/
def BootEmpty (s : State) : Prop := s.phase = .startCache → s.children = []

theorem BootEmpty.cacheFree (h : s.BootEmpty) (hp : s.phase = .startCache) : s.CacheFree := by
  intro c hc
  rw [h hp] at hc
  exact absurd hc List.not_mem_nil

theorem moves_handleCrash (hb : s.Books) (h1 : s.OneCache) {c : Child} (hc : c ∈ s.children)
    (status : ℕ) (r : Readings) :
    Moves cfg s ((s.unlist c.pid).handleCrash c.pid status r) := by
  unfold handleCrash
  cases hp : s.processesByPid.get? c.pid with
  | none =>
      have hun : (s.unlist c.pid).processesByPid.get? c.pid = none := hp
      simp only [hun]
      exact .single (.removed c.pid (hb.removed_unlist hp))
  | some info =>
      have hun : (s.unlist c.pid).processesByPid.get? c.pid = some info := hp
      simp only [hun]
      have hr := hb.removed_forget hp
      have hforgot : Moves cfg s ((s.unlist c.pid).forget info) := .single (.removed c.pid hr)
      obtain ⟨d, hd, hdp, hinfo⟩ := hb.known hp
      obtain rfl : d = c := List.inj_on_of_nodup_map hb.pids hd hc hdp
      have hid : info.type = .worker → 0 ≤ info.workerId ∧ info.workerId < 2 ^ 31 := by
        intro hworker
        subst hinfo
        exact hb.ids (hb.born hc hworker)
      have hfree : info.type = .modelCache → ((s.unlist d.pid).forget info).CacheFree := by
        intro hcache e he het
        rw [hr.children, List.mem_filter] at he
        subst hinfo
        exact (decide_eq_true_eq.mp he.2) (h1.unique e he.1 d hc het hcache)
      split
      · exact hforgot
      · have hreassign := moves_handleWorkerReassignment hforgot hid status r.reassignFork
        split
        · rename_i heq
          rw [heq] at hreassign
          exact hreassign
        · rename_i s₁ heq
          rw [heq] at hreassign
          have hlog := aside_writeCrashLog s₁ info status r
          have hlogged := hreassign.aside hlog
          split
          · exact hlogged
          · refine moves_restartCrashed hlogged hid ?_ r
            intro hcache
            have hrefused : (s.unlist d.pid).forget info = s₁ := by
              have hside : handleWorkerReassignment ((s.unlist d.pid).forget info) info status
                  r.reassignFork = (false, (s.unlist d.pid).forget info) := by
                unfold handleWorkerReassignment
                rw [if_pos (.inl (by simp [hcache]))]
              rw [hside] at heq
              exact (Prod.mk.inj heq).2
            intro e he
            rw [hlog.children, ← hrefused] at he
            exact hfree hcache e he

theorem id_of_lt {k : ℕ} (hk : k < cfg.effectiveWorkerCount) : 0 ≤ (k : ℤ) ∧ (k : ℤ) < 2 ^ 31 := by
  have hle := cfg.effective_le
  have hlt := cfg.workerCount_lt
  omega

theorem moves_restartWorker (h : Moves cfg s₀ s) {k : ℕ} (hk : k < cfg.effectiveWorkerCount)
    (fork : Fork) : Moves cfg s₀ (s.restartWorker k fork) := by
  have hstart := moves_startWorker h (id_of_lt hk) fork
  unfold restartWorker
  split
  · rename_i heq
    rw [heq] at hstart
    exact hstart
  · rename_i heq
    rw [heq] at hstart
    exact hstart.aside (aside_notify _ _ _)

theorem moves_startNext (hboot : s.BootEmpty) {fork : Fork} {runNonce : ℕ}
    (hs : s.startNext cfg fork runNonce = some s') : Moves cfg s s' := by
  have hapi : Moves cfg s (s.startApiServer fork).2 := moves_startApiServer .refl fork
  unfold startNext at hs
  split at hs
  · rename_i hphase
    have hcache : Moves cfg s (s.startModelCache fork runNonce).2 :=
      moves_startModelCache .refl (hboot.cacheFree hphase) fork runNonce
    split at hs <;> rename_i heq <;> rw [heq] at hcache <;> cases hs
    · exact hcache.enter (by simp)
    · exact hcache.enter (by simp)
  · split at hs <;> rename_i heq <;> rw [heq] at hapi <;> cases hs
    · exact hapi.enter (by simp)
    · exact hapi.enter (by simp)
  · rename_i next _
    split at hs
    · rename_i hlt
      have hworker : Moves cfg s (s.startWorker next fork).2 :=
        moves_startWorker .refl (id_of_lt hlt) fork
      split at hs <;> rename_i heq <;> rw [heq] at hworker <;> cases hs
      · exact hworker.enter (by simp)
      · exact hworker.enter (by simp)
    · cases hs
      exact Moves.enter .refl (by simp)
  · rename_i next _
    split at hs
    · rename_i hlt
      cases hs
      split
      · exact Moves.enter .refl (by simp)
      · exact (moves_restartWorker .refl hlt fork).enter (by simp)
    · cases hs
      exact Moves.enter .refl (by simp)
  · cases hs

theorem moves_observeReady {observed : Bool} (hs : s.observeReady observed = some s') :
    Moves cfg s s' := by
  unfold observeReady at hs
  split at hs <;> cases hs
  · exact Moves.enter .refl (by split <;> simp)
  · exact Moves.enter .refl (by split <;> simp)

theorem moves_reap (hb : s.Books) (h1 : s.OneCache) {r : Readings} (hs : s.reap pid r = some s') :
    Moves cfg s s' := by
  unfold reap at hs
  split at hs
  · rename_i c _ hfind
    obtain ⟨status, -, rfl⟩ := Option.map_eq_some_iff.mp hs
    have hpid : c.pid = pid := by simpa using List.find?_some hfind
    subst hpid
    exact moves_handleCrash hb h1 (List.mem_of_find?_eq_some hfind) status r
  · cases hs

theorem moves_stopNext (hs : s.stopNext cfg = some s') : Moves cfg s s' := by
  unfold stopNext at hs
  split at hs
  · split at hs
    · split at hs <;> cases hs
      · exact Moves.enter .refl (by simp)
      · exact (Moves.aside .refl (aside_terminated _ _ _)).enter (by simp)
    · cases hs
      exact Moves.enter .refl (by simp)
  · cases hs

theorem moves_waited (hb : s.Books) (hs : s.waited = some s') : Moves cfg s s' := by
  unfold waited at hs
  split at hs
  · split at hs
    · rename_i next _ _ pid hpid
      split at hs
      · cases hs
        have hstop : Moves cfg s (s.stopWorker next pid) :=
          .single (.removed pid (hb.removed_stopWorker hpid))
        exact hstop.enter (by simp)
      · cases hs
    · cases hs
  · cases hs

theorem moves_beat (hb : s.Books) {serial : ℕ} (hs : s.beat serial busyMs device = some s') :
    Moves cfg s s' := by
  unfold beat at hs
  split at hs
  · cases hs
  · rename_i c hfind
    split at hs
    · rename_i hframe
      cases hs
      have hp := List.find?_some hfind
      simp only [Bool.decide_and, Bool.and_eq_true, decide_eq_true_eq] at hp
      have hborn : Born s.trace serial c.workerId :=
        hp.1 ▸ hb.born (List.mem_of_find?_eq_some hfind) hp.2.1
      exact .single (.sent _ ⟨_, _, _, hborn, hframe.1, hframe.2.1, hframe.2.2, rfl⟩ rfl)
    · cases hs

/-- `checkWorker` leaves the state alone or enters one kill. -/
theorem checkWorker_cases (limits : LivenessLimits) (now : ℤ) (s : State) (w : ℤ) (pid : ℕ) :
    checkWorker limits now s (w, pid) = s ∨
      ∃ health, s.workerHealthById.get? w = some health ∧
        checkWorker limits now s (w, pid) =
          { s with
            workerHealthById :=
              s.workerHealthById.set w { health with lastHeartbeatMs := now, busyMs := 0 }
            trace := s.trace ++
              [.killed (s.serialOf pid) w (classifyWorker now health limits) now] } := by
  cases hh : s.workerHealthById.get? w with
  | none => exact .inl (by simp only [checkWorker, hh])
  | some health =>
      cases hv : classifyWorker now health limits with
      | healthy => exact .inl (by simp only [checkWorker, hh, hv])
      | starting => exact .inl (by simp only [checkWorker, hh, hv])
      | noHeartbeat => exact .inr ⟨health, rfl, by simp only [checkWorker, hh, hv]⟩
      | stuckRequest => exact .inr ⟨health, rfl, by simp only [checkWorker, hh, hv]⟩

theorem moves_checkWorker (h : Moves cfg s₀ s) (hw : s.workerPidById.get? w = some pid)
    (now : ℤ) : Moves cfg s₀ (checkWorker cfg.liveness now s (w, pid)) := by
  obtain hsame | ⟨health, hh, heq⟩ := checkWorker_cases cfg.liveness now s w pid
  · rw [hsame]
    exact h
  · exact h.tail (.killed w pid health now ⟨hw, hh, heq⟩)

theorem workers_checkWorker (limits : LivenessLimits) (now : ℤ) (s : State) (e : ℤ × ℕ) :
    (checkWorker limits now s e).workerPidById = s.workerPidById := by
  obtain hsame | ⟨health, -, heq⟩ := checkWorker_cases limits now s e.1 e.2
  · rw [hsame]
  · rw [heq]

theorem moves_checkWorkers (h : Moves cfg s₀ s) {entries : List (ℤ × ℕ)}
    (hentries : ∀ e ∈ entries, s.workerPidById.get? e.1 = some e.2) (now : ℤ) :
    Moves cfg s₀ (entries.foldl (checkWorker cfg.liveness now) s) := by
  induction entries generalizing s with
  | nil => exact h
  | cons e rest ih =>
      refine ih (moves_checkWorker h (hentries e (by simp)) now) fun e' he' => ?_
      rw [workers_checkWorker]
      exact hentries e' (List.mem_cons_of_mem _ he')

/-- The invariants from which every step is seen to be a chain of moves. -/
structure Orderly (s : State) : Prop where
  books : s.Books
  oneCache : s.OneCache
  bootEmpty : s.BootEmpty

/-- Every step but `accept` is a chain of moves. -/
theorem Orderly.moves_of_step (h : s.Orderly) {a : Action} (ha : ∀ now, a ≠ .accept now)
    (hs : step cfg s a = some s') : Moves cfg s s' := by
  cases a with
  | beat serial busyMs device => exact moves_beat h.books hs
  | die serial status =>
      cases hs
      exact .single (.ended serial status rfl)
  | requestStop =>
      cases hs
      exact .single (.aside (aside_running s false))
  | start fork runNonce => exact moves_startNext h.bootEmpty hs
  | ready observed => exact moves_observeReady hs
  | reap pid r => exact moves_reap h.books h.oneCache hs
  | stop => exact moves_stopNext hs
  | waited => exact moves_waited h.books hs
  | accept now => exact absurd rfl (ha now)
  | reaped =>
      obtain ⟨-, hs⟩ := Option.ite_none_right_eq_some.mp hs
      cases hs
      exact Moves.enter .refl (by simp)
  | drained =>
      obtain ⟨-, hs⟩ := Option.ite_none_right_eq_some.mp hs
      cases hs
      exact Moves.enter .refl (by simp)
  | check now =>
      obtain ⟨-, hs⟩ := Option.ite_none_right_eq_some.mp hs
      cases hs
      have hchecked : Moves cfg s (s.checkWorkerLiveness cfg.liveness now) :=
        moves_checkWorkers .refl (fun _ he => OrderedMap.get?_eq_some_iff.mpr he) now
      exact hchecked.enter (by simp)
  | wake =>
      obtain ⟨-, hs⟩ := Option.ite_none_right_eq_some.mp hs
      cases hs
      exact Moves.enter .refl (by split <;> simp)

theorem newline_notMem_heartbeatLine (hdev : device ∈ knownBackends) (w : ℤ)
    (busyMs : Option ℤ) : '\n' ∉ heartbeatLine w busyMs device := by
  have hdecimal : ∀ n, '\n' ∉ Text.decimal n := Text.notMem_decimal rfl (by decide)
  have hdevice : '\n' ∉ device.toList := by
    have hall : ∀ name ∈ knownBackends, '\n' ∉ name.toList := by decide
    exact hall device hdev
  have hstatus : '\n' ∉ (heartbeatStatus busyMs).toList := by
    cases busyMs <;> simp only [heartbeatStatus] <;> decide
  unfold heartbeatLine
  simp only [List.mem_append, hdecimal, hdevice, hstatus, not_or, not_false_iff, true_and, and_true]
  decide

/-- The lines of a heartbeat connection: the heartbeat, and nothing behind its newline. -/
theorem splitOn_heartbeat (hdev : device ∈ knownBackends) (w : ℤ) (busyMs : Option ℤ) :
    (heartbeatLine w busyMs device ++ ['\n']).splitOn '\n' = [heartbeatLine w busyMs device, []] := by
  have hline := List.splitOn_eq_singleton (newline_notMem_heartbeatLine hdev w busyMs)
  rw [List.splitOn_append_cons_self, hline]
  rfl

theorem readConnection_heartbeat (s : State) {conn : Connection} (hid : 0 ≤ w ∧ w < 2 ^ 31)
    (hdev : device ∈ knownBackends) (hlo : -2 ^ 63 ≤ busyMs.getD 0) (hhi : busyMs.getD 0 < 2 ^ 63)
    (htext : conn.text = heartbeatLine w busyMs device ++ ['\n']) (now : ℤ) :
    s.readConnection conn now = s.recordHeartbeat conn.sender w (busyMs.getD 0) now := by
  have hread : readLine now conn.sender s (heartbeatLine w busyMs device) =
      s.recordHeartbeat conn.sender w (busyMs.getD 0) now := by
    simp only [readLine, parseHeartbeat_heartbeatLine hid.1 hid.2 hdev hlo hhi]
  calc
    s.readConnection conn now =
        readLine now conn.sender (readLine now conn.sender s (heartbeatLine w busyMs device)) [] := by
      rw [readConnection, htext, splitOn_heartbeat hdev]
      rfl
    _ = readLine now conn.sender s (heartbeatLine w busyMs device) := rfl
    _ = s.recordHeartbeat conn.sender w (busyMs.getD 0) now := hread

theorem Books.recordHeartbeat (h : s.Books) (q : ℕ) (w busy now : ℤ) :
    (s.recordHeartbeat q w busy now).Books :=
  h.of_same rfl rfl rfl rfl (fun _ _ => born_append (by simp)) fun _ hm => hm

/-- What the head of the backlog is, and what taking it does. -/
theorem accept_cases (h : s.Books) {now : ℤ} (hs : s.accept now = some s') :
    ∃ conn rest w busyMs, s.backlog = conn :: rest ∧ Born s.trace conn.sender w ∧
      (∃ line ∈ conn.text.splitOn '\n', parseHeartbeat line = some (w, busyMs)) ∧
      s' = { s with backlog := rest }.recordHeartbeat conn.sender w busyMs now := by
  unfold accept at hs
  split at hs
  · rename_i conn rest _ hback
    cases hs
    obtain ⟨w, busyMs, device, hborn, hdev, hlo, hhi, htext⟩ := h.sent conn (by rw [hback]; simp)
    have hid := h.ids hborn
    refine ⟨conn, rest, w, busyMs.getD 0, hback, hborn, ⟨heartbeatLine w busyMs device, ?_, ?_⟩,
      readConnection_heartbeat _ hid hdev hlo hhi htext now⟩
    · rw [htext, splitOn_heartbeat hdev]
      exact List.mem_cons_self
    · exact parseHeartbeat_heartbeatLine hid.1 hid.2 hdev hlo hhi
  · cases hs

theorem Move.phase_ne (hm : Move cfg s s') (h : s.phase ≠ .startCache) :
    s'.phase ≠ .startCache := by
  cases hm with
  | aside ha => rwa [ha.phase]
  | enter phase hp heq => rwa [heq]
  | renonce runNonce _ heq => rwa [heq]
  | singleton c hf => rwa [hf.phase]
  | worker c now hf => rwa [hf.phase]
  | removed pid hr => rwa [hr.phase]
  | killed w pid health now hk => rwa [hk.eq]
  | sent conn _ heq => rwa [heq]
  | ended serial status heq => rwa [heq]

/-- The first step of the supervisor's own leaves the phase it starts in. -/
theorem BootEmpty.step (h : s.BootEmpty) {a : Action} (hmoves : Moves cfg s s')
    (hs : step cfg s a = some s') : s'.BootEmpty := by
  by_cases hphase : s.phase = .startCache
  · cases a with
    | beat serial busyMs device =>
        simp [Supervisor.step, beat, h hphase] at hs
    | die serial status =>
        cases hs
        intro _
        rw [children_die, h hphase, List.map_nil]
    | requestStop =>
        cases hs
        exact fun _ => h hphase
    | start fork runNonce =>
        simp only [Supervisor.step, startNext, hphase] at hs
        split at hs <;> cases hs
        · exact fun hp => by cases hp
        · exact fun hp => by cases hp
    | ready observed => simp [Supervisor.step, observeReady, hphase] at hs
    | reap pid r => simp [Supervisor.step, reap, hphase] at hs
    | reaped => simp [Supervisor.step, hphase] at hs
    | stop => simp [Supervisor.step, stopNext, hphase] at hs
    | waited => simp [Supervisor.step, waited, hphase] at hs
    | accept now => simp [Supervisor.step, accept, hphase] at hs
    | drained => simp [Supervisor.step, hphase] at hs
    | check now => simp [Supervisor.step, hphase] at hs
    | wake => simp [Supervisor.step, hphase] at hs
  · intro hp
    exact absurd hp (hmoves.invariant (fun _ _ ht hm => hm.phase_ne ht) hphase)

theorem Orderly.step (h : s.Orderly) {a : Action} (hs : Supervisor.step cfg s a = some s') :
    s'.Orderly := by
  by_cases ha : ∃ now, a = .accept now
  · obtain ⟨now, rfl⟩ := ha
    obtain ⟨conn, rest, w, busy, hback, -, -, rfl⟩ := accept_cases h.books hs
    have hrest : ∀ c ∈ rest, c ∈ s.backlog := fun c hc => hback ▸ List.mem_cons_of_mem conn hc
    refine ⟨Books.recordHeartbeat ?_ _ _ _ _, ⟨h.oneCache.unique, h.oneCache.nonce⟩, h.bootEmpty⟩
    exact h.books.of_same rfl rfl rfl rfl (fun _ _ => Iff.rfl) hrest
  · have hmoves := h.moves_of_step (not_exists.mp ha) hs
    exact ⟨hmoves.invariant (fun _ _ ht hm => ht.move hm) h.books,
      hmoves.invariant (fun _ _ ht hm => ht.move hm) h.oneCache, h.bootEmpty.step hmoves hs⟩

end State

theorem orderly_init (cfg : Config) : (init cfg).Orderly where
  books :=
    { pids := List.nodup_nil
      numbered := fun _ h => (List.not_mem_nil h).elim
      serials := List.nodup_nil
      listed := fun h => by cases h
      known := fun h => by cases h
      born := fun h => by cases h
      bornOnce := fun ⟨_, h⟩ => by cases h
      bornBefore := fun ⟨_, h⟩ => by cases h
      ids := fun ⟨_, h⟩ => by cases h
      sent := fun _ h => by cases h }
  oneCache := ⟨fun _ h => (List.not_mem_nil h).elim, fun _ h => (List.not_mem_nil h).elim⟩
  bootEmpty _ := rfl

/-- The books stay in order in every run. -/
theorem orderly_of_exec {cfg : Config} {as : List Action} {s : State}
    (h : Machine.exec (step cfg) (init cfg) as = some s) : s.Orderly :=
  Machine.exec_invariant (orderly_init cfg) (fun _ _ _ ht hs => ht.step hs) h

end ServeInfer.Supervisor
