import ServeInfer.Supervisor.Loop

/-!
# The supervisor's tables and its children

A worker id's pid is listed with that id, every listed pid is an unreaped child
of the listed kind, and every worker process was born once, for one worker id.
-/

namespace ServeInfer.Supervisor

/-- The process with this number was started for the worker id. -/
def Born (trace : List Event) (serial : ℕ) (workerId : ℤ) : Prop :=
  ∃ now, .spawned serial workerId now ∈ trace

/-- A message to the api-server or a `SIGTERM`: nothing that bears on a worker's health. -/
def Event.Quiet : Event → Prop
  | .terminated .. => True
  | .notified .. => True
  | _ => False

namespace State

variable {s s' s'' : State} {w : ℤ} {pid n : ℕ} {es : List Event}

/-- What the tables and the children have to do with each other. -/
structure Books (s : State) : Prop where
  pids : s.pids.Nodup
  numbered : ∀ c ∈ s.children, c.serial < s.forks
  serials : (s.children.map Child.serial).Nodup
  listed : ∀ {w pid}, s.workerPidById.get? w = some pid →
    s.processesByPid.get? pid = some ⟨pid, .worker, w⟩
  known : ∀ {pid info}, s.processesByPid.get? pid = some info →
    ∃ c ∈ s.children, c.pid = pid ∧ info = ⟨pid, c.type, c.workerId⟩
  born : ∀ {c}, c ∈ s.children → c.type = .worker → Born s.trace c.serial c.workerId
  bornOnce : ∀ {n w w'}, Born s.trace n w → Born s.trace n w' → w = w'
  bornBefore : ∀ {n w}, Born s.trace n w → n < s.forks
  ids : ∀ {n w}, Born s.trace n w → 0 ≤ w ∧ w < 2 ^ 31
  sent : ∀ conn ∈ s.backlog, ∃ w busyMs device, Born s.trace conn.sender w ∧
    device ∈ knownBackends ∧ -2 ^ 63 ≤ busyMs.getD 0 ∧ busyMs.getD 0 < 2 ^ 63 ∧
    conn.text = heartbeatLine w busyMs device ++ ['\n']

/-- Nothing changed that the books or a worker's health depend on. -/
structure Aside (s s' : State) : Prop where
  phase : s'.phase = s.phase
  runNonce : s'.runNonce = s.runNonce
  children : s'.children = s.children
  forks : s'.forks = s.forks
  processes : s'.processesByPid = s.processesByPid
  workers : s'.workerPidById = s.workerPidById
  health : s'.workerHealthById = s.workerHealthById
  backlog : s'.backlog = s.backlog
  trace : ∃ es, s'.trace = s.trace ++ es ∧ ∀ e ∈ es, e.Quiet

theorem Aside.refl (s : State) : s.Aside s :=
  ⟨rfl, rfl, rfl, rfl, rfl, rfl, rfl, rfl, [], by simp, by simp⟩

theorem Aside.trans (h : s.Aside s') (h' : s'.Aside s'') : s.Aside s'' where
  phase := h'.phase.trans h.phase
  runNonce := h'.runNonce.trans h.runNonce
  children := h'.children.trans h.children
  forks := h'.forks.trans h.forks
  processes := h'.processes.trans h.processes
  workers := h'.workers.trans h.workers
  health := h'.health.trans h.health
  backlog := h'.backlog.trans h.backlog
  trace := by
    obtain ⟨es, hes, hq⟩ := h.trace
    obtain ⟨es', hes', hq'⟩ := h'.trace
    refine ⟨es ++ es', ?_, ?_⟩
    · rw [hes', hes, List.append_assoc]
    · intro e he
      rcases List.mem_append.mp he with he | he
      · exact hq e he
      · exact hq' e he

theorem aside_notify (s : State) (notice : Notice) (w : ℤ) : s.Aside (s.notifyApiServer notice w) :=
  ⟨rfl, rfl, rfl, rfl, rfl, rfl, rfl, rfl, [.notified notice w], rfl, by simp [Event.Quiet]⟩

theorem aside_terminated (s : State) (victim : Option ℕ) (w : ℤ) :
    s.Aside (s.log (.terminated victim w)) :=
  ⟨rfl, rfl, rfl, rfl, rfl, rfl, rfl, rfl, [.terminated victim w], rfl, by simp [Event.Quiet]⟩

theorem aside_assignments (s : State) (assignments : List WorkerAssignment) :
    s.Aside { s with assignments := assignments } :=
  ⟨rfl, rfl, rfl, rfl, rfl, rfl, rfl, rfl, [], by simp, by simp⟩

theorem aside_running (s : State) (running : Bool) : s.Aside { s with running := running } :=
  ⟨rfl, rfl, rfl, rfl, rfl, rfl, rfl, rfl, [], by simp, by simp⟩

theorem aside_writeCrashLog (s : State) (info : ProcessInfo) (status : ℕ) (r : Readings) :
    s.Aside (s.writeCrashLog info status r) := by
  unfold writeCrashLog
  split
  · exact ⟨rfl, rfl, rfl, rfl, rfl, rfl, rfl, rfl, [], by simp, by simp⟩
  · exact Aside.refl s

theorem aside_registerCrash (s : State) (key : ℤ) (info : ProcessInfo) (r : Readings) :
    s.Aside (s.registerCrash key info r).2 :=
  ⟨rfl, rfl, rfl, rfl, rfl, rfl, rfl, rfl, [], by simp [registerCrash], by simp⟩

/-- Only a `spawned` entry tells of a birth. -/
theorem born_append {trace : List Event} (hes : ∀ e ∈ es, ∀ w now, e ≠ .spawned n w now) :
    Born (trace ++ es) n w ↔ Born trace n w := by
  constructor
  · rintro ⟨now, hm⟩
    rcases List.mem_append.mp hm with hm | hm
    · exact ⟨now, hm⟩
    · exact absurd rfl (hes _ hm w now)
  · rintro ⟨now, hm⟩
    exact ⟨now, List.mem_append_left _ hm⟩

theorem Aside.born (h : s.Aside s') : Born s'.trace n w ↔ Born s.trace n w := by
  obtain ⟨es, hes, hq⟩ := h.trace
  rw [hes]
  refine born_append fun e he w now heq => ?_
  have hquiet := hq e he
  rw [heq] at hquiet
  exact hquiet

/-- The books read of the history only who was born, and of the backlog only who sent. -/
theorem Books.of_same (h : s.Books) (hc : s'.children = s.children) (hf : s'.forks = s.forks)
    (hp : s'.processesByPid = s.processesByPid) (hw : s'.workerPidById = s.workerPidById)
    (ht : ∀ n w, Born s'.trace n w ↔ Born s.trace n w)
    (hb : ∀ conn ∈ s'.backlog, conn ∈ s.backlog) : s'.Books where
  pids := by
    rw [State.pids, hc]
    exact h.pids
  numbered c hm := hf ▸ h.numbered c (hc ▸ hm)
  serials := hc ▸ h.serials
  listed hpid := by
    rw [hp]
    exact h.listed (hw ▸ hpid)
  known hpid := by
    rw [hc]
    exact h.known (hp ▸ hpid)
  born hm htype := (ht _ _).mpr (h.born (hc ▸ hm) htype)
  bornOnce hn hn' := h.bornOnce ((ht _ _).mp hn) ((ht _ _).mp hn')
  bornBefore hn := hf ▸ h.bornBefore ((ht _ _).mp hn)
  ids hn := h.ids ((ht _ _).mp hn)
  sent conn hm := by
    obtain ⟨w, busyMs, device, hn, hrest⟩ := h.sent conn (hb conn hm)
    exact ⟨w, busyMs, device, (ht _ _).mpr hn, hrest⟩

theorem Books.aside (h : s.Books) (ha : s.Aside s') : s'.Books :=
  h.of_same ha.children ha.forks ha.processes ha.workers (fun _ _ => ha.born)
    fun _ hm => ha.backlog ▸ hm

theorem serialOf_eq_some (hs : s.pids.Nodup) :
    s.serialOf pid = some n ↔ ∃ c ∈ s.children, c.pid = pid ∧ c.serial = n := by
  unfold serialOf
  rw [Option.map_eq_some_iff]
  constructor
  · rintro ⟨c, hc, hn⟩
    exact ⟨c, List.mem_of_find?_eq_some hc, by simpa using List.find?_some hc, hn⟩
  · rintro ⟨c, hc, hp, hn⟩
    obtain ⟨d, hd⟩ : ∃ d, s.children.find? (fun c => c.pid = pid) = some d :=
      Option.isSome_iff_exists.mp (List.find?_isSome.mpr ⟨c, hc, by simp [hp]⟩)
    have hdp : d.pid = c.pid := by
      rw [hp]
      simpa using List.find?_some hd
    have hdc : d = c := List.inj_on_of_nodup_map hs (List.mem_of_find?_eq_some hd) hc hdp
    exact ⟨d, hd, hdc ▸ hn⟩

/-- The process that stands for a worker id is a child started for it. -/
theorem Books.owner_iff (h : s.Books) : s.owner w = some n ↔
    ∃ c ∈ s.children, s.workerPidById.get? w = some c.pid ∧ c.serial = n ∧ c.type = .worker ∧
      c.workerId = w := by
  unfold owner
  rw [Option.bind_eq_some_iff]
  constructor
  · rintro ⟨pid, hpid, hn⟩
    obtain ⟨c, hc, hp, hn⟩ := (serialOf_eq_some h.pids).mp hn
    obtain ⟨d, hd, hdp, hinfo⟩ := h.known (h.listed hpid)
    have hdc : d = c := List.inj_on_of_nodup_map h.pids hd hc (hdp.trans hp.symm)
    subst hdc
    simp only [ProcessInfo.mk.injEq, true_and] at hinfo
    exact ⟨d, hc, hp ▸ hpid, hn, hinfo.1.symm, hinfo.2.symm⟩
  · rintro ⟨c, hc, hpid, hn, -, -⟩
    exact ⟨c.pid, hpid, (serialOf_eq_some h.pids).mpr ⟨c, hc, rfl, hn⟩⟩

theorem Books.born_of_owner (h : s.Books) (ho : s.owner w = some n) : Born s.trace n w := by
  obtain ⟨c, hc, -, rfl, ht, rfl⟩ := h.owner_iff.mp ho
  exact h.born hc ht

/-- A process stands for one worker id only. -/
theorem Books.owner_unique (h : s.Books) {w' : ℤ} (ho : s.owner w = some n)
    (hb : Born s.trace n w') : w = w' :=
  h.bornOnce (h.born_of_owner ho) hb

/-- What a fork adds to the books. -/
structure Forked (s s' : State) (c : Child) : Prop where
  phase : s'.phase = s.phase
  runNonce : s'.runNonce = s.runNonce
  fresh : c.pid ∉ s.pids
  serial : c.serial = s.forks
  children : s'.children = s.children ++ [c]
  forks : s'.forks = s.forks + 1
  processes : s'.processesByPid = s.processesByPid.set c.pid ⟨c.pid, c.type, c.workerId⟩
  backlog : s'.backlog = s.backlog

theorem Books.fresh_process (h : s.Books) (hf : pid ∉ s.pids) :
    s.processesByPid.get? pid = none := by
  cases hp : s.processesByPid.get? pid with
  | none => rfl
  | some info =>
      obtain ⟨c, hc, hcp, -⟩ := h.known hp
      exact absurd (hcp ▸ List.mem_map_of_mem hc) hf

theorem forkExec_cases (s : State) (pid : Option ℕ) (child : Child) :
    s.forkExec pid child = (none, s) ∨
      ∃ p, p ∉ s.pids ∧ s.forkExec pid child =
        (some p, { s with
          children := s.children ++ [{ child with serial := s.forks, pid := p }]
          forks := s.forks + 1 }) := by
  unfold forkExec
  cases pid with
  | none => exact .inl rfl
  | some p =>
      by_cases hp : p ∈ s.pids
      · exact .inl (if_pos hp)
      · exact .inr ⟨p, hp, if_neg hp⟩

theorem Books.forked_pids (h : s.Books) {c : Child} (hf : s.Forked s' c) : s'.pids.Nodup := by
  rw [State.pids, hf.children, List.map_append]
  exact h.pids.append (List.nodup_singleton _) (by simpa using hf.fresh)

theorem Books.forked_numbered (h : s.Books) {c : Child} (hf : s.Forked s' c) :
    ∀ d ∈ s'.children, d.serial < s'.forks := by
  intro d hd
  rw [hf.children, List.mem_append, List.mem_singleton] at hd
  rw [hf.forks]
  rcases hd with hd | rfl
  · exact Nat.lt_succ_of_lt (h.numbered d hd)
  · rw [hf.serial]
    exact Nat.lt_succ_self _

theorem Books.forked_serials (h : s.Books) {c : Child} (hf : s.Forked s' c) :
    (s'.children.map Child.serial).Nodup := by
  rw [hf.children, List.map_append]
  refine h.serials.append (List.nodup_singleton _) ?_
  intro n hn hc
  obtain ⟨d, hd, rfl⟩ := List.mem_map.mp hn
  have hlt := h.numbered d hd
  rw [List.mem_singleton.mp hc, hf.serial] at hlt
  exact absurd hlt (Nat.lt_irrefl _)

theorem Books.forked_known (h : s.Books) {c : Child} (hf : s.Forked s' c) {info : ProcessInfo}
    (hp : s'.processesByPid.get? pid = some info) :
    ∃ d ∈ s'.children, d.pid = pid ∧ info = ⟨pid, d.type, d.workerId⟩ := by
  rw [hf.processes, OrderedMap.get?_set] at hp
  rw [hf.children]
  split at hp
  · rename_i heq
    subst heq
    exact ⟨c, by simp, rfl, (Option.some.inj hp).symm⟩
  · obtain ⟨d, hd, hrest⟩ := h.known hp
    exact ⟨d, List.mem_append_left _ hd, hrest⟩

theorem Books.forked_listed (h : s.Books) {c : Child} (hf : s.Forked s' c)
    (hw : s.workerPidById.get? w = some pid) :
    s'.processesByPid.get? pid = some ⟨pid, .worker, w⟩ := by
  have hold := h.listed hw
  have hne : c.pid ≠ pid := by
    rintro rfl
    rw [h.fresh_process hf.fresh] at hold
    cases hold
  rw [hf.processes, OrderedMap.get?_set_of_ne _ _ hne]
  exact hold

theorem Books.singleton (h : s.Books) {c : Child} (hf : s.Forked s' c) (hc : c.type ≠ .worker)
    (hw : s'.workerPidById = s.workerPidById) (ht : s'.trace = s.trace) : s'.Books where
  pids := h.forked_pids hf
  numbered := h.forked_numbered hf
  serials := h.forked_serials hf
  listed hpid := h.forked_listed hf (hw ▸ hpid)
  known hpid := h.forked_known hf hpid
  born hm htype := by
    rw [hf.children] at hm
    rw [ht]
    rcases List.mem_append.mp hm with hm | hm
    · exact h.born hm htype
    · exact absurd (List.mem_singleton.mp hm ▸ htype) hc
  bornOnce hn hn' := h.bornOnce (ht ▸ hn) (ht ▸ hn')
  bornBefore hn := by
    have hlt := h.bornBefore (ht ▸ hn)
    rw [hf.forks]
    omega
  ids hn := h.ids (ht ▸ hn)
  sent conn hm := by
    rw [ht]
    exact h.sent conn (hf.backlog ▸ hm)

theorem born_spawned {trace : List Event} {n' : ℕ} {w' now : ℤ} :
    Born (trace ++ [.spawned n' w' now]) n w ↔ Born trace n w ∨ n = n' ∧ w = w' := by
  unfold Born
  constructor
  · rintro ⟨t, hm⟩
    rcases List.mem_append.mp hm with hm | hm
    · exact .inl ⟨t, hm⟩
    · have heq := List.mem_singleton.mp hm
      simp only [Event.spawned.injEq] at heq
      exact .inr ⟨heq.1, heq.2.1⟩
  · rintro (⟨t, hm⟩ | ⟨rfl, rfl⟩)
    · exact ⟨t, List.mem_append_left _ hm⟩
    · exact ⟨now, by simp⟩

theorem Books.worker (h : s.Books) {c : Child} {now : ℤ} (hf : s.Forked s' c)
    (hc : c.type = .worker) (hid : 0 ≤ c.workerId ∧ c.workerId < 2 ^ 31)
    (hw : s'.workerPidById = s.workerPidById.set c.workerId c.pid)
    (ht : s'.trace = s.trace ++ [.spawned c.serial c.workerId now]) : s'.Books where
  pids := h.forked_pids hf
  numbered := h.forked_numbered hf
  serials := h.forked_serials hf
  listed {w pid} hpid := by
    rw [hw, OrderedMap.get?_set] at hpid
    split at hpid
    · rename_i heq
      subst heq
      cases hpid
      rw [hf.processes, OrderedMap.get?_set_self, hc]
    · exact h.forked_listed hf hpid
  known hpid := h.forked_known hf hpid
  born hm htype := by
    rw [hf.children] at hm
    rw [ht, born_spawned]
    rcases List.mem_append.mp hm with hm | hm
    · exact .inl (h.born hm htype)
    · rw [List.mem_singleton.mp hm]
      exact .inr ⟨rfl, rfl⟩
  bornOnce {n w w'} hn hn' := by
    rw [ht, born_spawned] at hn hn'
    have hfresh : ∀ w, ¬ Born s.trace c.serial w := fun w hb => by
      have hlt := h.bornBefore hb
      have hserial := hf.serial
      omega
    rcases hn with hn | ⟨rfl, rfl⟩ <;> rcases hn' with hn' | ⟨heq, rfl⟩
    · exact h.bornOnce hn hn'
    · exact absurd (heq ▸ hn) (hfresh w)
    · exact absurd hn' (hfresh w')
    · rfl
  bornBefore hn := by
    rw [ht, born_spawned] at hn
    rw [hf.forks]
    rcases hn with hn | ⟨rfl, -⟩
    · exact Nat.lt_succ_of_lt (h.bornBefore hn)
    · rw [hf.serial]
      exact Nat.lt_succ_self _
  ids hn := by
    rw [ht, born_spawned] at hn
    rcases hn with hn | ⟨-, rfl⟩
    · exact h.ids hn
    · exact hid
  sent conn hm := by
    obtain ⟨w, busyMs, device, hn, hrest⟩ := h.sent conn (hf.backlog ▸ hm)
    refine ⟨w, busyMs, device, ?_, hrest⟩
    rw [ht, born_spawned]
    exact .inl hn

/-- A process has been reaped: its pid is gone from the children and from the tables. -/
structure Removed (s s' : State) (pid : ℕ) : Prop where
  phase : s'.phase = s.phase
  runNonce : s'.runNonce = s.runNonce
  children : s'.children = s.children.filter fun c => c.pid ≠ pid
  forks : s'.forks = s.forks
  processes : s'.processesByPid = s.processesByPid.delete pid
  workers : ∀ {w p}, s'.workerPidById.get? w = some p → s.workerPidById.get? w = some p ∧ p ≠ pid
  health : ∀ {w p}, s'.workerPidById.get? w = some p →
    s'.workerHealthById.get? w = s.workerHealthById.get? w
  trace : s'.trace = s.trace
  backlog : s'.backlog = s.backlog

theorem Books.removed (h : s.Books) (hr : s.Removed s' pid) : s'.Books where
  pids := by
    rw [State.pids, hr.children]
    exact h.pids.sublist (List.filter_sublist.map Child.pid)
  numbered c hm := by
    rw [hr.children] at hm
    exact hr.forks ▸ h.numbered c (List.mem_filter.mp hm).1
  serials := by
    rw [hr.children]
    exact h.serials.sublist (List.filter_sublist.map Child.serial)
  listed hpid := by
    obtain ⟨hold, hne⟩ := hr.workers hpid
    rw [hr.processes, OrderedMap.get?_delete, if_neg (Ne.symm hne)]
    exact h.listed hold
  known hpid := by
    rw [hr.processes, OrderedMap.get?_delete] at hpid
    split at hpid
    · cases hpid
    · rename_i hne
      obtain ⟨c, hc, hcp, hinfo⟩ := h.known hpid
      refine ⟨c, ?_, hcp, hinfo⟩
      rw [hr.children, List.mem_filter]
      exact ⟨hc, by simpa [hcp] using Ne.symm hne⟩
  born hm htype := by
    rw [hr.children] at hm
    rw [hr.trace]
    exact h.born (List.mem_filter.mp hm).1 htype
  bornOnce hn hn' := h.bornOnce (hr.trace ▸ hn) (hr.trace ▸ hn')
  bornBefore hn := hr.forks ▸ h.bornBefore (hr.trace ▸ hn)
  ids hn := h.ids (hr.trace ▸ hn)
  sent conn hm := by
    rw [hr.trace]
    exact h.sent conn (hr.backlog ▸ hm)

/-- The worker ids left in the tables keep the process they had. -/
theorem Books.owner_removed (h : s.Books) (hr : s.Removed s' pid) (ho : s'.owner w = some n) :
    s.owner w = some n := by
  obtain ⟨c, hc, hpid, hn, ht, hid⟩ := (h.removed hr).owner_iff.mp ho
  rw [hr.children, List.mem_filter] at hc
  exact h.owner_iff.mpr ⟨c, hc.1, (hr.workers hpid).1, hn, ht, hid⟩

theorem Books.removed_unlist (h : s.Books) (hp : s.processesByPid.get? pid = none) :
    s.Removed (s.unlist pid) pid where
  phase := rfl
  runNonce := rfl
  children := rfl
  forks := rfl
  processes := by
    refine OrderedMap.ext ?_
    refine (List.filter_eq_self.mpr fun e he => ?_).symm
    have hne : e.1 ≠ pid := by
      rintro rfl
      have hin : (e.1, e.2) ∈ s.processesByPid.entries := he
      rw [OrderedMap.get?_eq_some_iff.mpr hin] at hp
      cases hp
    simpa using hne
  workers hpid := by
    refine ⟨hpid, ?_⟩
    rintro rfl
    rw [h.listed hpid] at hp
    cases hp
  health _ := rfl
  trace := rfl
  backlog := rfl

theorem Books.removed_forget (h : s.Books) {info : ProcessInfo}
    (hp : s.processesByPid.get? pid = some info) :
    s.Removed ((s.unlist pid).forget info) pid := by
  obtain ⟨c, hc, hcp, hinfo⟩ := h.known hp
  have hpid : info.pid = pid := by rw [hinfo]
  by_cases hworker : info.type = .worker ∧ info.workerId ≥ 0
  · have heq : (s.unlist pid).forget info = { s.unlist pid with
        processesByPid := s.processesByPid.delete info.pid
        workerPidById := s.workerPidById.delete info.workerId
        workerHealthById := s.workerHealthById.delete info.workerId } := by
      simp [forget, hworker, unlist]
    rw [heq]
    refine ⟨rfl, rfl, rfl, rfl, by rw [hpid], ?_, ?_, rfl, rfl⟩
    · intro w p hw
      rw [OrderedMap.get?_delete] at hw
      split at hw
      · cases hw
      · rename_i hne
        refine ⟨hw, ?_⟩
        rintro rfl
        rw [h.listed hw, Option.some.injEq] at hp
        exact hne (congrArg ProcessInfo.workerId hp.symm)
    · intro w p hw
      rw [OrderedMap.get?_delete] at hw
      split at hw
      · cases hw
      · rename_i hne
        exact (OrderedMap.get?_delete _ _ _).trans (if_neg hne)
  · have heq : (s.unlist pid).forget info =
        { s.unlist pid with processesByPid := s.processesByPid.delete info.pid } := by
      simp only [forget, hworker, if_false, unlist]
    rw [heq]
    refine ⟨rfl, rfl, rfl, rfl, by rw [hpid], ?_, fun _ => rfl, rfl, rfl⟩
    intro w p hw
    refine ⟨hw, ?_⟩
    rintro rfl
    have hlisted := h.listed hw
    rw [hp, Option.some.injEq] at hlisted
    obtain ⟨n, hn⟩ : ∃ n, s.owner w = some n := by
      refine ⟨c.serial, h.owner_iff.mpr ⟨c, hc, hcp ▸ hw, rfl, ?_, ?_⟩⟩
      · exact congrArg ProcessInfo.type (hinfo.symm.trans hlisted)
      · exact congrArg ProcessInfo.workerId (hinfo.symm.trans hlisted)
    have hid := (h.ids (h.born_of_owner hn)).1
    rw [hlisted] at hworker
    exact hworker ⟨rfl, hid⟩

theorem Books.removed_stopWorker (h : s.Books) {k : ℕ} (hw : s.workerPidById.get? k = some pid) :
    s.Removed (s.stopWorker k pid) pid where
  phase := rfl
  runNonce := rfl
  children := rfl
  forks := rfl
  processes := rfl
  workers {w p} hp := by
    simp only [stopWorker, OrderedMap.get?_delete] at hp
    split at hp
    · cases hp
    · rename_i hne
      refine ⟨hp, ?_⟩
      rintro rfl
      have hsame := (h.listed hp).symm.trans (h.listed hw)
      rw [Option.some.injEq] at hsame
      exact hne (congrArg ProcessInfo.workerId hsame).symm
  health _ := rfl
  trace := rfl
  backlog := rfl

end State

end ServeInfer.Supervisor
