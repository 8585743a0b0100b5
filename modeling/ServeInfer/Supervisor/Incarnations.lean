import ServeInfer.Supervisor.Steps

/-!
# Heartbeats of replaced processes

A heartbeat names a worker id and not a process. The health record of a worker
id is its present process's own record, made of that process's start, of the
heartbeats it sent and of the signal it was sent, exactly as long as every
connection taken from the backlog was made by the process that its worker id
has by then.
-/

namespace ServeInfer.Supervisor

/-- What one entry of the history does to the record of a process. -/
def ownEvent (n : ℕ) (health : WorkerHealth) : Event → WorkerHealth
  | .spawned serial _ now => if serial = n then { spawnedAtMs := now } else health
  | .heard sender _ _ busyMs now =>
      if sender = n then { health with lastHeartbeatMs := now, busyMs := busyMs } else health
  | .killed victim _ _ now =>
      if victim = some n then { health with lastHeartbeatMs := now, busyMs := 0 } else health
  | _ => health

/-- The record of a process by itself: its start, the heartbeats it sent, its kill. -/
def ownHealth (n : ℕ) (trace : List Event) : WorkerHealth := trace.foldl (ownEvent n) {}

/-- No heartbeat of the process has been heard and it has not been killed. -/
def Silent (n : ℕ) (trace : List Event) : Prop :=
  ∀ e ∈ trace, (∀ w owner busyMs now, e ≠ .heard n w owner busyMs now) ∧
    ∀ w verdict now, e ≠ .killed (some n) w verdict now

/-- No process is judged by what another one sent. -/
structure IncarnationSafe (cfg : Config) (s : State) : Prop where
  heard : ∀ q w n busyMs now, .heard q w (some n) busyMs now ∈ s.trace → q = n
  health : ∀ w n, s.owner w = some n → s.workerHealthById.get? w = some (ownHealth n s.trace)
  grace : ∀ w n, s.owner w = some n → Silent n s.trace →
    ∃ spawnedAt health, .spawned n w spawnedAt ∈ s.trace ∧
      s.workerHealthById.get? w = some health ∧
      ∀ now, classifyWorker now health cfg.liveness =
        if cfg.liveness.startupGraceMs ≤ 0 ∨ now - spawnedAt ≤ cfg.liveness.startupGraceMs then
          .starting
        else .noHeartbeat
  kills : ∀ past n w verdict now, past ++ [.killed (some n) w verdict now] <+: s.trace →
    classifyWorker now (ownHealth n past) cfg.liveness = verdict

/-- A connection is taken from the backlog only while its sender is still the process of the
worker id that it names, or that id has no process. -/
def SentByOwner (s : State) : Action → Prop
  | .accept _ =>
      match s.backlog with
      | [] => True
      | conn :: _ =>
          ∀ line ∈ conn.text.splitOn '\n', ∀ w busyMs, parseHeartbeat line = some (w, busyMs) →
            ∀ n, s.owner w = some n → n = conn.sender
  | _ => True

variable {cfg : Config} {s s' : State} {n pid : ℕ} {w : ℤ} {trace es : List Event} {e : Event}

theorem ownHealth_snoc (n : ℕ) (trace : List Event) (e : Event) :
    ownHealth n (trace ++ [e]) = ownEvent n (ownHealth n trace) e := by
  simp [ownHealth, List.foldl_append]

theorem ownEvent_quiet (hq : e.Quiet) (health : WorkerHealth) : ownEvent n health e = health := by
  cases e with
  | terminated => rfl
  | notified => rfl
  | spawned => exact hq.elim
  | heard => exact hq.elim
  | killed => exact hq.elim

theorem ownHealth_quiet (hq : ∀ e ∈ es, e.Quiet) :
    ownHealth n (trace ++ es) = ownHealth n trace := by
  induction es using List.reverseRecOn with
  | nil => rw [List.append_nil]
  | append_singleton es e ih =>
      rw [← List.append_assoc, ownHealth_snoc, ownEvent_quiet (hq e (by simp))]
      exact ih fun e he => hq e (List.mem_append_left _ he)

theorem prefix_of_quiet (hq : ∀ e ∈ es, e.Quiet) {past : List Event} (he : ¬ e.Quiet)
    (hp : past ++ [e] <+: trace ++ es) : past ++ [e] <+: trace := by
  induction es using List.reverseRecOn with
  | nil => simpa using hp
  | append_singleton es x ih =>
      rw [← List.append_assoc] at hp
      rcases List.prefix_concat_iff.mp hp with heq | hp
      · have hlast : e = x := List.singleton_inj.mp (List.append_inj_right' heq rfl)
        exact absurd (hlast ▸ hq x (by simp)) he
      · exact ih (fun e he => hq e (List.mem_append_left _ he)) hp

/-- The part of the safety statement that every step has to keep. -/
structure Evidence (cfg : Config) (s : State) : Prop where
  heard : ∀ {q w n busyMs now}, .heard q w (some n) busyMs now ∈ s.trace → q = n
  health : ∀ {w n}, s.owner w = some n → s.workerHealthById.get? w = some (ownHealth n s.trace)
  kills : ∀ {past n w verdict now}, past ++ [.killed (some n) w verdict now] <+: s.trace →
    classifyWorker now (ownHealth n past) cfg.liveness = verdict

/-- A process of which nothing has been heard has the record it was started with. -/
theorem ownHealth_of_silent (hs : Silent n trace) (hb : Born trace n w) :
    ∃ w now, .spawned n w now ∈ trace ∧ ownHealth n trace = { spawnedAtMs := now } := by
  induction trace using List.reverseRecOn with
  | nil =>
      obtain ⟨now, hm⟩ := hb
      exact absurd hm List.not_mem_nil
  | append_singleton trace e ih =>
      rw [ownHealth_snoc]
      by_cases hborn : ∃ w now, e = .spawned n w now
      · obtain ⟨w, now, rfl⟩ := hborn
        exact ⟨w, now, by simp, by simp [ownEvent]⟩
      · have hb' : Born trace n w := (State.born_append (by simpa using hborn)).mp hb
        obtain ⟨w', now, hm, heq⟩ := ih (fun e he => hs e (List.mem_append_left _ he)) hb'
        refine ⟨w', now, List.mem_append_left _ hm, ?_⟩
        rw [← heq]
        obtain ⟨hheard, hkilled⟩ := hs e (by simp)
        cases e with
        | spawned serial w now =>
            refine if_neg fun hn => hborn ⟨w, now, ?_⟩
            rw [hn]
        | heard sender w owner busyMs now =>
            refine if_neg fun hn => hheard w owner busyMs now ?_
            rw [hn]
        | killed victim w verdict now =>
            refine if_neg fun hn => hkilled w verdict now ?_
            rw [hn]
        | terminated => rfl
        | notified => rfl

namespace State

theorem owner_eq_of_same (hc : s'.children = s.children) (hw : s'.workerPidById = s.workerPidById)
    (w : ℤ) : s'.owner w = s.owner w := by
  have hserial : s'.serialOf = s.serialOf := by
    funext pid
    simp only [serialOf, hc]
  simp only [owner, hserial, hw]

/-- A fork that is no worker's leaves every worker id its process. -/
theorem Books.owner_singleton (h : s.Books) {c : Child} (hf : s.ForkedSingleton s' c)
    (ho : s'.owner w = some n) : s.owner w = some n := by
  have h' := h.singleton hf.toForked hf.type hf.workers hf.trace
  obtain ⟨d, hd, hpid, hn, ht, hid⟩ := h'.owner_iff.mp ho
  rw [hf.children, List.mem_append, List.mem_singleton] at hd
  rcases hd with hd | rfl
  · exact h.owner_iff.mpr ⟨d, hd, hf.workers ▸ hpid, hn, ht, hid⟩
  · exact absurd ht hf.type

/-- After a worker's fork its worker id stands for the new process, the others for their old. -/
theorem Books.owner_worker (h : s.Books) {c : Child} {now : ℤ} (hf : s.ForkedWorker s' c now)
    (ho : s'.owner w = some n) :
    w = c.workerId ∧ n = c.serial ∨ w ≠ c.workerId ∧ n ≠ c.serial ∧ s.owner w = some n := by
  have h' := h.worker hf.toForked hf.type hf.ids hf.workers hf.trace
  obtain ⟨d, hd, hpid, rfl, htype, rfl⟩ := h'.owner_iff.mp ho
  rw [hf.children, List.mem_append, List.mem_singleton] at hd
  rcases hd with hd | rfl
  · have hne : c.pid ≠ d.pid := fun heq => hf.fresh (heq ▸ List.mem_map_of_mem hd)
    rw [hf.workers, OrderedMap.get?_set] at hpid
    split at hpid
    · exact absurd (Option.some.inj hpid) hne
    · rename_i hw
      have hown : s.owner d.workerId = some d.serial :=
        h.owner_iff.mpr ⟨d, hd, hpid, rfl, htype, rfl⟩
      have hlt := h.bornBefore (h.born_of_owner hown)
      have hserial := hf.serial
      exact .inr ⟨Ne.symm hw, by omega, hown⟩
  · exact .inl ⟨rfl, rfl⟩

theorem owner_die (h : s.Books) (serial status : ℕ) (ho : (s.die serial status).owner w = some n) :
    s.owner w = some n := by
  obtain ⟨d, hd, hpid, hn, ht, hid⟩ := (h.die serial status).owner_iff.mp ho
  obtain ⟨c, hc, rfl⟩ := List.mem_map.mp hd
  rw [endChild_serial] at hn
  rw [endChild_pid] at hpid
  rw [endChild_type] at ht
  rw [endChild_workerId] at hid
  exact h.owner_iff.mpr ⟨c, hc, hpid, hn, ht, hid⟩

end State

theorem Evidence.aside (h : Evidence cfg s) (ha : s.Aside s') : Evidence cfg s' := by
  obtain ⟨es, hes, hq⟩ := ha.trace
  refine ⟨?_, ?_, ?_⟩
  · intro q w n busyMs now hm
    rw [hes, List.mem_append] at hm
    rcases hm with hm | hm
    · exact h.heard hm
    · exact (hq _ hm).elim
  · intro w n ho
    rw [ha.health, hes, ownHealth_quiet hq]
    exact h.health (State.owner_eq_of_same ha.children ha.workers w ▸ ho)
  · intro past n w verdict now hp
    rw [hes] at hp
    exact h.kills (prefix_of_quiet hq (fun hf => hf) hp)

theorem Evidence.worker (h : Evidence cfg s) (hb : s.Books) {c : Child} {now : ℤ}
    (hf : s.ForkedWorker s' c now) : Evidence cfg s' := by
  refine ⟨?_, ?_, ?_⟩
  · intro q w n busyMs t hm
    rw [hf.trace, List.mem_append] at hm
    exact h.heard (hm.resolve_right (by simp))
  · intro w n ho
    rw [hf.health, hf.trace, ownHealth_snoc]
    obtain ⟨rfl, rfl⟩ | ⟨hw, hn, hown⟩ := hb.owner_worker hf ho
    · rw [OrderedMap.get?_set_self]
      simp [ownEvent]
    · rw [OrderedMap.get?_set_of_ne _ _ (Ne.symm hw), h.health hown]
      simp [ownEvent, Ne.symm hn]
  · intro past n w verdict t hp
    rw [hf.trace] at hp
    rcases List.prefix_concat_iff.mp hp with heq | hp
    · have hlast := List.singleton_inj.mp (List.append_inj_right' heq rfl)
      cases hlast
    · exact h.kills hp

/-- A kill is entered on the record of the process that is killed. -/
theorem Evidence.killed (h : Evidence cfg s) (hb : s.Books) {health : WorkerHealth} {now : ℤ}
    (hk : s.Killed cfg.liveness s' w pid health now) : Evidence cfg s' := by
  have howner : s.owner w = s.serialOf pid := by
    rw [State.owner, hk.listed, Option.bind_some]
  rw [hk.eq]
  refine ⟨?_, ?_, ?_⟩
  · intro q w' n busy t hm
    rcases List.mem_append.mp hm with hm | hm
    · exact h.heard hm
    · exact absurd (List.mem_singleton.mp hm) (by simp)
  · intro w' n ho
    have ho' : s.owner w' = some n := ho
    have hrecord := h.health ho'
    rw [ownHealth_snoc]
    by_cases hww : w = w'
    · subst hww
      have hserial : s.serialOf pid = some n := howner ▸ ho'
      rw [hk.judged, Option.some.injEq] at hrecord
      simp [ownEvent, hserial, hrecord]
    · have hne : s.serialOf pid ≠ some n := by
        intro hserial
        have hborn := hb.born_of_owner (howner.trans hserial)
        exact hww (hb.owner_unique ho' hborn).symm
      simp [OrderedMap.get?_set_of_ne _ _ hww, ownEvent, hne, hrecord]
  · intro past n w' verdict t hp
    rcases List.prefix_concat_iff.mp hp with heq' | hp
    · obtain ⟨rfl, hlast⟩ := List.append_inj' heq' rfl
      simp only [List.cons.injEq, Event.killed.injEq, and_true] at hlast
      obtain ⟨hserial, rfl, rfl, rfl⟩ := hlast
      have hrecord := h.health (howner.trans hserial.symm)
      rw [hk.judged, Option.some.injEq] at hrecord
      rw [← hrecord]
    · exact h.kills hp

/-- No move gives a process another one's record. -/
theorem Evidence.move (h : Evidence cfg s) (hb : s.Books) (hm : State.Move cfg s s') :
    Evidence cfg s' := by
  cases hm with
  | aside ha => exact h.aside ha
  | enter phase _ heq =>
      subst heq
      exact ⟨h.heard, h.health, h.kills⟩
  | renonce runNonce _ heq =>
      subst heq
      exact ⟨h.heard, h.health, h.kills⟩
  | singleton c hf =>
      refine ⟨hf.trace ▸ h.heard, ?_, hf.trace ▸ h.kills⟩
      intro w n ho
      rw [hf.health, hf.trace]
      exact h.health (hb.owner_singleton hf ho)
  | worker c now hf => exact h.worker hb hf
  | removed pid hr =>
      refine ⟨hr.trace ▸ h.heard, ?_, hr.trace ▸ h.kills⟩
      intro w n ho
      obtain ⟨c, hc, hpid, -⟩ := (hb.removed hr).owner_iff.mp ho
      rw [hr.health hpid, hr.trace]
      exact h.health (hb.owner_removed hr ho)
  | killed w pid health now hk => exact h.killed hb hk
  | sent conn _ heq =>
      subst heq
      exact ⟨h.heard, h.health, h.kills⟩
  | ended serial status heq =>
      subst heq
      exact ⟨h.heard, fun ho => h.health (State.owner_die hb serial status ho), h.kills⟩

/-- A heartbeat that goes into its sender's own record keeps every record its process's own. -/
theorem Evidence.recordHeartbeat (h : Evidence cfg s) (hb : s.Books) {q : ℕ}
    (hborn : Born s.trace q w) (hown : ∀ n, s.owner w = some n → n = q) (busy now : ℤ) :
    Evidence cfg (s.recordHeartbeat q w busy now) := by
  have hfirst (n : ℕ) : ownHealth n (s.recordHeartbeat q w busy now).trace =
      ownEvent n (ownHealth n s.trace) (.heard q w (s.owner w) busy now) :=
    ownHealth_snoc n s.trace _
  refine ⟨?_, ?_, ?_⟩
  · intro q' w' n busy' now' hm
    rcases List.mem_append.mp hm with hm | hm
    · exact h.heard hm
    · have heq := List.mem_singleton.mp hm
      simp only [Event.heard.injEq] at heq
      obtain ⟨rfl, rfl, howner, -, -⟩ := heq
      exact (hown n howner.symm).symm
  · intro w' n ho
    have ho' : s.owner w' = some n := ho
    have hrecord := h.health ho'
    by_cases hw : w = w'
    · subst hw
      obtain rfl := hown n ho'
      rw [hfirst]
      simp [State.recordHeartbeat, ownEvent, hrecord]
    · have hne : q ≠ n := fun hq => hw (hb.owner_unique ho' (hq ▸ hborn)).symm
      rw [hfirst]
      simp [State.recordHeartbeat, OrderedMap.get?_set_of_ne _ _ hw, ownEvent, hne, hrecord]
  · intro past n w' verdict t hp
    rcases List.prefix_concat_iff.mp hp with heq | hp
    · have hlast := List.singleton_inj.mp (List.append_inj_right' heq rfl)
      cases hlast
    · exact h.kills hp

/-- Orderly books and no process judged by another's heartbeats. -/
structure Sound (cfg : Config) (s : State) : Prop where
  orderly : s.Orderly
  evidence : Evidence cfg s

variable {a : Action}

theorem Evidence.moves (h : Sound cfg s) (hm : State.Moves cfg s s') : Evidence cfg s' := by
  have hboth : s'.Books ∧ Evidence cfg s' := by
    refine State.Moves.invariant (P := fun t => t.Books ∧ Evidence cfg t) hm ?_ ?_
    · exact fun _ _ ht hm => ⟨ht.1.move hm, ht.2.move ht.1 hm⟩
    · exact ⟨h.orderly.books, h.evidence⟩
  exact hboth.2

/-- The step lemma: a step keeps the evidence clean unless it reads a stale heartbeat. -/
theorem Sound.step (h : Sound cfg s) (hok : SentByOwner s a)
    (hs : Supervisor.step cfg s a = some s') : Sound cfg s' := by
  refine ⟨h.orderly.step hs, ?_⟩
  by_cases ha : ∃ now, a = .accept now
  · obtain ⟨now, rfl⟩ := ha
    obtain ⟨conn, rest, w, busyMs, hback, hborn, ⟨line, hline, hparse⟩, rfl⟩ :=
      State.accept_cases h.orderly.books hs
    have hrest : State.Books { s with backlog := rest } :=
      h.orderly.books.of_same rfl rfl rfl rfl (fun _ _ => Iff.rfl)
        fun c hc => hback ▸ List.mem_cons_of_mem conn hc
    have hclean : Evidence cfg { s with backlog := rest } :=
      ⟨h.evidence.heard, h.evidence.health, h.evidence.kills⟩
    refine hclean.recordHeartbeat hrest hborn ?_ busyMs now
    intro n ho
    simp only [SentByOwner, hback] at hok
    exact hok line hline w busyMs hparse n ho
  · exact Evidence.moves h (h.orderly.moves_of_step (not_exists.mp ha) hs)

theorem sound_init (cfg : Config) : Sound cfg (init cfg) where
  orderly := orderly_init cfg
  evidence :=
    { heard := fun h => by cases h
      health := fun h => by cases h
      kills := fun h => by
        have hnil := List.prefix_nil.mp h
        simp at hnil }

theorem Sound.incarnationSafe (h : Sound cfg s) : IncarnationSafe cfg s where
  heard _ _ _ _ _ hm := h.evidence.heard hm
  health _ _ ho := h.evidence.health ho
  kills _ _ _ _ _ hp := h.evidence.kills hp
  grace w n ho hsilent := by
    have hborn := h.orderly.books.born_of_owner ho
    obtain ⟨w', now, hm, hown⟩ := ownHealth_of_silent hsilent hborn
    obtain rfl := h.orderly.books.bornOnce hborn ⟨now, hm⟩
    exact ⟨now, _, hm, h.evidence.health ho, fun t => by rw [hown]; rfl⟩

/-- Taking a replaced process's connection enters its heartbeat into its successor's record. -/
theorem not_incarnationSafe_of_stale (h : Sound cfg s) (hnot : ¬ SentByOwner s a)
    (hs : step cfg s a = some s') : ¬ IncarnationSafe cfg s' := by
  cases a with
  | accept now =>
      obtain ⟨conn, rest, w, busyMs, hback, hborn, -, rfl⟩ := State.accept_cases h.orderly.books hs
      obtain ⟨w', busyMs', device, hborn', hdev, hlo, hhi, htext⟩ :=
        h.orderly.books.sent conn (by rw [hback]; simp)
      obtain rfl := h.orderly.books.bornOnce hborn hborn'
      have hid := h.orderly.books.ids hborn
      simp only [SentByOwner, hback, htext, State.splitOn_heartbeat hdev, not_forall] at hnot
      obtain ⟨line, hline, w'', b, hparse, n, ho, hne⟩ := hnot
      simp only [List.mem_cons, List.not_mem_nil, or_false] at hline
      rcases hline with rfl | rfl
      · rw [parseHeartbeat_heartbeatLine hid.1 hid.2 hdev hlo hhi, Option.some.injEq,
          Prod.mk.injEq] at hparse
        obtain ⟨rfl, -⟩ := hparse
        intro hsafe
        have howner : State.owner { s with backlog := rest } w = some n := ho
        refine hne (hsafe.heard conn.sender w n busyMs now ?_).symm
        simp [State.recordHeartbeat, howner]
      · cases hparse
  | beat => exact absurd trivial hnot
  | die => exact absurd trivial hnot
  | requestStop => exact absurd trivial hnot
  | start => exact absurd trivial hnot
  | ready => exact absurd trivial hnot
  | reap => exact absurd trivial hnot
  | reaped => exact absurd trivial hnot
  | stop => exact absurd trivial hnot
  | waited => exact absurd trivial hnot
  | drained => exact absurd trivial hnot
  | check => exact absurd trivial hnot
  | wake => exact absurd trivial hnot

/-- In every run of the supervisor, from its start on, no process is judged by what another one
sent exactly when no connection of a replaced process is taken from the backlog. -/
theorem incarnation_safe_iff {as : List Action}
    (h : Machine.exec (step cfg) (init cfg) as = some s) :
    Machine.Always (step cfg) (IncarnationSafe cfg) (init cfg) as ↔
      Machine.Guarded (step cfg) SentByOwner (init cfg) as :=
  Machine.always_iff_guarded (sound_init cfg) (fun _ ht => ht.incarnationSafe)
    (fun _ _ _ ht hok hs => ht.step hok hs)
    (fun _ _ _ ht hnot hs => not_incarnationSafe_of_stale ht hnot hs) h

/-- One worker, on the cpu, and the shipped limits. -/
def oneWorker : Config where
  workerCount := 1
  effectiveWorkerCount := 1
  effective_le := le_rfl
  workerCount_lt := by decide
  assignments := [⟨0, .cpu, 0, ""⟩]

/-- Worker 0 reports a request that has run for longer than the stuck ceiling, and dies before
the supervisor drains its socket; the replacement is forked with that connection waiting. -/
def staleRun : List Action :=
  [.start { pid := some 10 } 7, .ready true, .start { pid := some 11 } 0,
    .start { pid := some 12, now := 1000 } 0, .start { pid := none } 0, .wake,
    .beat 2 (some 180010) "cpu", .die 2 139, .reap 12 { fork := { pid := some 13, now := 182000 } },
    .reaped, .accept 182050, .drained, .check 182050]

theorem incarnation_safe_respawn :
    Machine.Always (step oneWorker) (IncarnationSafe oneWorker) (init oneWorker)
        (staleRun.take 10) ↔
      Machine.Guarded (step oneWorker) SentByOwner (init oneWorker) (staleRun.take 10) :=
  incarnation_safe_iff (Option.some_get (by decide)).symm

/-- The replacement is killed as stuck before it has sent a heartbeat, and while its own record
says that it is starting. -/
theorem stale_heartbeat_kills :
    ¬ ∀ (cfg : Config) (as : List Action) (s : State),
      Machine.exec (step cfg) (init cfg) as = some s → IncarnationSafe cfg s := by
  intro hall
  let past : List Event :=
    [.spawned 2 0 1000, .notified .workerCrashed 0, .spawned 3 0 182000,
      .notified .workerRestarted 0, .heard 2 0 (some 3) 180010 182050]
  have hrun : (Machine.exec (step oneWorker) (init oneWorker) staleRun).map State.trace =
      some (past ++ [.killed (some 3) 0 .stuckRequest 182050]) := by
    decide
  obtain ⟨s, hs, htrace⟩ := Option.map_eq_some_iff.mp hrun
  have hkill := (hall oneWorker staleRun s hs).kills past 3 0 .stuckRequest 182050
    (htrace ▸ List.prefix_refl _)
  have hstarting : classifyWorker 182050 (ownHealth 3 past) oneWorker.liveness = .starting := by
    decide
  rw [hstarting] at hkill
  cases hkill

end ServeInfer.Supervisor
