import ServeInfer.ApiServer.Recovery

/-!
# What one step does to a worker's recovery

A step leaves a recovery alone, starts it over, brings the worker back, fires
one of its timers or answers one of its probes.
-/

namespace ServeInfer.ApiServer

namespace WorkerPool

variable {o : Options} {s s' : WorkerPool} {a : PoolAction} {w : ℤ} {e : WorkerEntry}
  {v v' : Recovery}

/-- The steps that start a worker's recovery over: a crash or a restart notice, a refresh that
finds its grace over, and a socket failure of its run. -/
def rearms (o : Options) (s : WorkerPool) (a : PoolAction) (w : ℤ) : Bool :=
  match a with
  | .infer reading _ => s.expired o reading w
  | .getHealth reading => s.expired o reading w
  | .supervisor _ (.workerCrashed w' _) => decide (w' = w ∧ s.status w ≠ none)
  | .supervisor _ (.workerRestarted w') =>
      decide (w' = w ∧ s.status w ≠ none ∧ s.status w ≠ some .busy)
  | .error r _ => s.broken r w
  | .close r => s.broken r w
  | _ => false

/-- The steps that give a worker its whole budget back. -/
def resets (o : Options) (s : WorkerPool) (a : PoolAction) (w : ℤ) : Bool :=
  s.rearms o a w ||
    match a with
    | .supervisor _ (.workerReady w') =>
        decide (w' = w ∧ s.status w ≠ none ∧ s.status w ≠ some .busy)
    | .probe id _ true =>
        (s.probes.find? fun p => p.id = id).any (fun p => p.workerId = w) &&
          decide (s.status w = some .crashed)
    | _ => false

/-- The steps that call `_probeWorker` for a worker. -/
def starts (s : WorkerPool) (a : PoolAction) (w : ℤ) : Bool :=
  match a with
  | .recoveryTimer id _ => (s.timers.find? fun t => t.id = id).any fun t => t.workerId = w
  | _ => false

/-- What one step does to one worker's recovery. -/
inductive Turn (o : Options) (s : WorkerPool) (a : PoolAction) (w : ℤ) (v : Recovery) :
    Recovery → Prop
  | idle (hrearm : s.rearms o a w = false) (hstart : s.starts a w = false) : Turn o s a w v v
  | rearmed (v' : Recovery) (hrearm : s.rearms o a w = true) (h : Rearmed o v v') :
      Turn o s a w v v'
  | readied (hrearm : s.rearms o a w = false) (hreset : s.resets o a w = true) :
      Turn o s a w v v.clear.ready
  | fired (id : ℕ) (hrearm : s.rearms o a w = false) (hstart : s.starts a w = true)
      (hmem : id ∈ v.timers) : Turn o s a w v { v.fire id with probes := v.probes + 1 }
  | refused (id new : ℕ) (hrearm : s.rearms o a w = false) (hstart : s.starts a w = true)
      (hmem : id ∈ v.timers) :
      Turn o s a w v ((v.fire id).answer o.recoveryAttempts new false)
  | answered (new : ℕ) (alive : Bool) (hrearm : s.rearms o a w = false)
      (hstart : s.starts a w = false) (hprobe : v.probes ≠ 0)
      (hreset : alive = true → v.crashed = true → s.resets o a w = true) :
      Turn o s a w v ({ v with probes := v.probes - 1 }.answer o.recoveryAttempts new alive)

/-- What one step does to the recoveries. -/
structure Turns (o : Options) (s : WorkerPool) (a : PoolAction) (s' : WorkerPool) : Prop where
  numbered : s'.Numbered
  probe : ∀ p ∈ s'.probes, p ∈ s.probes ∨ p.id = s.nextProbe
  nextProbe : s.nextProbe ≤ s'.nextProbe
  absent : ∀ w, s.recovery w = none → s'.recovery w = none
  recovery : ∀ w v, s.recovery w = some v → ∃ v', s'.recovery w = some v' ∧ Turn o s a w v v'

/-- A step that starts over what it says, and nothing else. -/
theorem Restarts.turns (h : Restarts o (fun w => s.rearms o a w = true) s s')
    (hstart : ∀ w, s.starts a w = false) : Turns o s a s' where
  numbered := h.numbered
  probe := fun p hp => .inl (h.probes ▸ hp)
  nextProbe := h.nextProbe ▸ Nat.le_refl _
  absent := h.absent
  recovery := by
    intro w v hv
    obtain ⟨v', hv', hcase⟩ := h.recovery w v hv
    refine ⟨v', hv', ?_⟩
    rcases hcase with ⟨hrearm, hrearmed⟩ | ⟨hno, rfl⟩
    · exact .rearmed v' hrearm hrearmed
    · exact .idle (by simpa using hno) (hstart w)

theorem status_of_recovery (hv : s.recovery w = some v) : s.status w ≠ none := by
  obtain ⟨e, he, -⟩ := exists_of_recovery hv
  rw [status_of_get? he]
  exact Option.some_ne_none _

theorem crashed_iff (hv : s.recovery w = some v) :
    v.crashed = true ↔ s.status w = some .crashed := by
  obtain ⟨e, he, rfl⟩ := exists_of_recovery hv
  rw [status_of_get? he, decide_eq_true_eq, Option.some_inj]

theorem rests_failAll (l : List (JsString × InFlight)) (s : WorkerPool) (w : ℤ) :
    s.Rests (l.foldl (fun s e => s.failInFlight o e.2.run (crashError w e.1)) s) := by
  induction l generalizing s with
  | nil => exact .refl s
  | cons e l ih => exact (rests_failInFlight s e.2.run rfl).trans (ih _)

/-- A crash notice. -/
theorem Numbered.restarts_markWorkerCrashed (h : s.Numbered) (w : ℤ) (requestId : JsString) :
    Restarts o (fun w' => w = w' ∧ s.status w' ≠ none) s (s.markWorkerCrashed o w requestId) := by
  cases hv : s.recovery w with
  | none =>
      have hget : s.workers.get? w = none := Option.map_eq_none_iff.mp hv
      have hsame : s.markWorkerCrashed o w requestId = s := by
        simp only [markWorkerCrashed, hget]
      rw [hsame]
      refine (Rests.refl s).restarts h ?_
      rintro _ _ - ⟨rfl, hsome⟩
      exact hsome (status_of_none hget)
  | some v =>
      obtain ⟨e, he, -⟩ := exists_of_recovery hv
      have hcrashed := h.recovers_crashed he hv
      generalize hs1 : (s.setWorker w fun e => { e with status := .crashed }) = s1 at hcrashed
      have hfailed := rests_failAll (o := o) (s1.affected w requestId) s1 w
      generalize hs2 : (s1.affected w requestId).foldl
        (fun s e => s.failInFlight o e.2.run (crashError w e.1)) s1 = s2 at hfailed
      have hv2 : s2.recovery w = some { v with crashed := true } :=
        hfailed.recovery ▸ hcrashed.self
      obtain ⟨e2, he2, hview⟩ := exists_of_recovery hv2
      have hup : e2.status = .crashed := by
        simpa using (congrArg Recovery.crashed hview).symm
      have hrearm := (hfailed.numbered hcrashed.numbered).recovers_rearm (o := o) he2 hv2
        (f := fun e => { e with recoveryAttempt := 0 }) hup rfl (.inl rfl)
      have hgo : s.markWorkerCrashed o w requestId =
          ((s2.clearTimeout e2.recoveryTimer).setWorker w fun e =>
            { e with recoveryAttempt := 0 }).scheduleRecoveryProbe o w := by
        simp only [markWorkerCrashed, he, hs1, hs2, he2, Option.bind_some]
      rw [hgo]
      refine (hcrashed.trans (hfailed.recovers hrearm)).restarts hv ⟨_, _, rfl⟩ fun w' => ?_
      constructor
      · exact fun hm => hm.1.symm
      · rintro rfl
        exact ⟨rfl, status_of_recovery hv⟩

/-- A restart notice. -/
theorem Numbered.restarts_workerRestarted (h : s.Numbered) (w now : ℤ) :
    Restarts o (fun w' => w = w' ∧ s.status w' ≠ none ∧ s.status w' ≠ some .busy) s
      (s.handleSupervisorMessage o now (.workerRestarted w)) := by
  cases hv : s.recovery w with
  | none =>
      have hget : s.workers.get? w = none := Option.map_eq_none_iff.mp hv
      have hsame : s.handleSupervisorMessage o now (.workerRestarted w) = s := by
        simp only [handleSupervisorMessage, hget]
      rw [hsame]
      refine (Rests.refl s).restarts h ?_
      rintro _ _ - ⟨rfl, hsome, -⟩
      exact hsome (status_of_none hget)
  | some v =>
      obtain ⟨e, he, -⟩ := exists_of_recovery hv
      by_cases hbusy : e.status = .busy
      · have hsame : s.handleSupervisorMessage o now (.workerRestarted w) = s := by
          simp only [handleSupervisorMessage, he, if_pos hbusy]
        rw [hsame]
        refine (Rests.refl s).restarts h ?_
        rintro _ _ - ⟨rfl, -, hidle⟩
        exact hidle (by rw [status_of_get? he, hbusy])
      · have hgo : s.handleSupervisorMessage o now (.workerRestarted w) =
            ((s.clearTimeout e.recoveryTimer).setWorker w fun e =>
              { e with
                recoveryTimer := none
                recoveryAttempt := 0
                startedAt := now
                status := .crashed }).scheduleRecoveryProbe o w := by
          simp only [handleSupervisorMessage, revive, he, if_neg hbusy]
        rw [hgo]
        have hrearm := h.recovers_rearm (o := o) he hv
          (f := fun e => { e with
            recoveryTimer := none
            recoveryAttempt := 0
            startedAt := now
            status := .crashed }) rfl rfl (.inr rfl)
        refine hrearm.restarts hv ⟨_, _, rfl⟩ fun w' => ?_
        constructor
        · exact fun hm => hm.1.symm
        · rintro rfl
          refine ⟨rfl, status_of_recovery hv, ?_⟩
          rw [status_of_get? he]
          simpa using hbusy

/-- A ready notice. -/
theorem Numbered.turns_workerReady (h : s.Numbered) (w now now' : ℤ) :
    Turns o s (.supervisor now' (.workerReady w)) (s.revive w now .ready) := by
  have hrest : s.Rests s := .refl s
  by_cases hidle : s.status w ≠ none ∧ s.status w ≠ some .busy
  · obtain ⟨e, he⟩ : ∃ e, s.workers.get? w = some e := by
      cases he : s.workers.get? w with
      | none => exact absurd (status_of_none he) hidle.1
      | some e => exact ⟨e, rfl⟩
    have hbusy : e.status ≠ .busy := by
      intro hb
      rw [status_of_get? he, hb] at hidle
      exact hidle.2 rfl
    have hv := recovery_of_get? he
    have hcleared := h.recovers_clear he hv
    have hset := hcleared.numbered.recovers_setWorker (w := w) he
      (f := fun e => { e with
        recoveryTimer := none
        recoveryAttempt := 0
        startedAt := now
        status := .ready }) (.inr rfl)
    have hrevive : s.revive w now .ready = (s.clearTimeout e.recoveryTimer).setWorker w fun e =>
        { e with
          recoveryTimer := none
          recoveryAttempt := 0
          startedAt := now
          status := .ready } := by
      simp only [revive, he, if_neg hbusy]
    have hall := hcleared.trans hset
    rw [← hrevive] at hall
    refine ⟨hall.numbered, fun p hp => .inl (hall.probes ▸ hp), hall.nextProbe ▸ Nat.le_refl _,
      fun _ => hall.absent hv, ?_⟩
    intro w' u hu
    by_cases hw : w' = w
    · subst hw
      obtain rfl := Option.some.inj (hv.symm.trans hu)
      refine ⟨_, hall.self, ?_⟩
      have hview : (s.clearTimeout e.recoveryTimer).recovery w' = _ := hcleared.self
      rw [recovery_of_get? (s := s.clearTimeout e.recoveryTimer) he, Option.some.injEq,
        Recovery.ext_iff] at hview
      obtain ⟨-, -, -, htimers, hprobes⟩ := hview
      dsimp only at htimers hprobes
      rw [htimers, hprobes]
      exact .readied rfl (by simpa [resets, rearms] using hidle)
    · refine ⟨u, ?_, .idle rfl rfl⟩
      rw [hall.recovery, Function.update_of_ne hw, hu]
  · have hsame : s.revive w now .ready = s := by
      unfold revive
      split
      · rfl
      · rename_i e he
        rw [if_pos]
        by_contra hbusy
        refine hidle ⟨?_, ?_⟩
        · rw [status_of_get? he]
          exact Option.some_ne_none _
        · rw [status_of_get? he]
          simpa using hbusy
    rw [hsame]
    exact ⟨h, fun p hp => .inl hp, Nat.le_refl _, fun _ => id,
      fun w' u hu => ⟨u, hu, .idle rfl rfl⟩⟩

/-- What is done with a probe's answer. -/
theorem Numbered.recovers_probed (h : s.Numbered) (hv : s.recovery w = some v) (now : ℤ)
    (alive : Bool) :
    s.Recovers (s.probed o w now alive) w
      (v.answer o.recoveryAttempts s.nextTimer alive) := by
  obtain ⟨e, he, rfl⟩ := exists_of_recovery hv
  unfold probed Recovery.answer
  simp only [he]
  by_cases hcrashed : e.status = .crashed
  · simp only [hcrashed, ne_eq, not_true_eq_false, if_false, decide_true, Bool.true_eq_false]
    cases alive with
    | true => exact h.recovers_setWorker he (.inr rfl)
    | false =>
        have hscheduled := h.recovers_schedule (o := o) hv
        simpa [hcrashed] using hscheduled
  · simp only [ne_eq, hcrashed, not_false_eq_true, if_true, decide_false]
    simpa [hcrashed] using h.recovers_refl hv

theorem probed_of_none (hv : s.recovery w = none) (now : ℤ) (alive : Bool) :
    s.probed o w now alive = s := by
  have hget : s.workers.get? w = none := Option.map_eq_none_iff.mp hv
  simp only [probed, hget]

/-- A pending timer's number is among its worker's, and no other worker's. -/
theorem Numbered.mem_timersOf_iff (h : s.Numbered) {timer : RecoveryTimer}
    (ht : timer ∈ s.timers) (w : ℤ) : timer.id ∈ s.timersOf w ↔ timer.workerId = w := by
  rw [timersOf, List.mem_map]
  constructor
  · rintro ⟨t, hin, hid⟩
    obtain ⟨hin, hw⟩ := List.mem_filter.mp hin
    obtain rfl := List.inj_on_of_nodup_map h.timers hin ht hid
    simpa using hw
  · intro hw
    exact ⟨timer, List.mem_filter.mpr ⟨ht, by simpa using hw⟩, rfl⟩

theorem Recovery.fire_of_notMem {id : ℕ} (hid : id ∉ v.timers) : v.fire id = v := by
  have hkeep : v.timers.filter (fun t => t ≠ id) = v.timers := by
    apply List.filter_eq_self.mpr
    intro t ht
    simpa using fun heq : t = id => hid (heq ▸ ht)
  rw [Recovery.fire, hkeep]

theorem absent_of_workers (hw : s'.workers = s.workers) (hnone : s.recovery w = none) :
    s'.recovery w = none := by
  rw [recovery, Option.map_eq_none_iff] at hnone ⊢
  rw [hw]
  exact hnone

/-- A timer that fires is pending no more. -/
theorem recovery_fired (hv : s.recovery w = some v) (id : ℕ) :
    (s.clearTimeout (some id)).recovery w = some (v.fire id) := by
  obtain ⟨e, he, rfl⟩ := exists_of_recovery hv
  have hview : (s.clearTimeout (some id)).recovery w = _ :=
    recovery_of_get? (s := s.clearTimeout (some id)) he
  rw [hview, timersOf_clearTimeout, Recovery.fire]
  simp only [Option.some_inj, ne_eq]
  rfl

/-- What is in flight once `_probeWorker` has opened its connection. -/
def startProbe (s : WorkerPool) (w : ℤ) : WorkerPool :=
  { s with probes := s.probes ++ [⟨s.nextProbe, w⟩], nextProbe := s.nextProbe + 1 }

theorem Numbered.startProbe (h : s.Numbered) (w : ℤ) : (s.startProbe w).Numbered where
  timers := h.timers
  timer := h.timer
  recorded := h.recorded
  own := h.own
  probes := by
    rw [WorkerPool.startProbe, List.map_append, List.map_singleton]
    refine h.probes.append (List.nodup_singleton _) ?_
    intro id hid hnew
    obtain ⟨p, hp, rfl⟩ := List.mem_map.mp hid
    exact Nat.ne_of_lt (h.probe p hp) (List.mem_singleton.mp hnew)
  probe := by
    intro p hp
    rcases List.mem_append.mp hp with hold | hnew
    · exact Nat.lt_succ_of_lt (h.probe p hold)
    · rw [List.mem_singleton.mp hnew]
      exact Nat.lt_succ_self _

theorem recovery_startProbe (hv : s.recovery w = some v) (w' : ℤ) :
    (s.startProbe w').recovery w =
      some { v with probes := v.probes + if w' = w then 1 else 0 } := by
  obtain ⟨e, he, rfl⟩ := exists_of_recovery hv
  have hview : (s.startProbe w').recovery w = _ := recovery_of_get? (s := s.startProbe w') he
  have hcount : (s.startProbe w').probesOf w = s.probesOf w + if w' = w then 1 else 0 := by
    rw [probesOf, startProbe, List.countP_append, List.countP_singleton, probesOf]
    simp
  rw [hview, hcount]
  rfl

/-- A recovery timer fires. -/
theorem Numbered.turns_recoveryTimer (h : s.Numbered) {timer : RecoveryTimer} {id : ℕ}
    (hfind : s.timers.find? (fun t => t.id = id) = some timer) (reading : Reading) :
    Turns o s (.recoveryTimer id reading) (s.onRecoveryTimer o timer reading) := by
  have hmem : timer ∈ s.timers := List.mem_of_find?_eq_some hfind
  have hstarts : ∀ w, s.starts (.recoveryTimer id reading) w = decide (timer.workerId = w) := by
    intro w
    rw [starts, hfind, Option.any_some]
  have hcleared := h.clearTimeout (some timer.id)
  generalize hs1 : s.clearTimeout (some timer.id) = s1 at hcleared
  have hview : ∀ w v, s.recovery w = some v → s1.recovery w = some (v.fire timer.id) := by
    intro w v hv
    rw [← hs1]
    exact recovery_fired hv timer.id
  have hprobes : s1.probes = s.probes := hs1 ▸ rfl
  have hnext : s1.nextProbe = s.nextProbe := hs1 ▸ rfl
  have habsent : ∀ w, s.recovery w = none → s1.recovery w = none :=
    fun _ => absent_of_workers (hs1 ▸ rfl)
  have hin : ∀ w v, s.recovery w = some v → (timer.id ∈ v.timers ↔ timer.workerId = w) := by
    intro w v hv
    obtain ⟨e, -, rfl⟩ := exists_of_recovery hv
    exact h.mem_timersOf_iff hmem w
  -- another worker's recovery is left alone by the timer
  have hother : ∀ w v, s.recovery w = some v → timer.workerId ≠ w → v.fire timer.id = v := by
    intro w v hv hw
    exact Recovery.fire_of_notMem fun hid => hw ((hin w v hv).mp hid)
  by_cases hsocket : s1.workers.has timer.workerId && reading.socketExists timer.workerId
  · have hgo : s.onRecoveryTimer o timer reading = s1.startProbe timer.workerId := by
      simp only [onRecoveryTimer, hs1, if_pos hsocket]
      rfl
    rw [hgo]
    refine ⟨hcleared.startProbe timer.workerId, ?_, ?_, ?_, ?_⟩
    · intro p hp
      rcases List.mem_append.mp hp with hold | hnew
      · exact .inl (hprobes ▸ hold)
      · rw [List.mem_singleton.mp hnew]
        exact .inr hnext
    · exact hnext ▸ Nat.le_succ _
    · exact fun w hw => absent_of_workers (s := s1) rfl (habsent w hw)
    · intro w v hv
      refine ⟨_, recovery_startProbe (hview w v hv) timer.workerId, ?_⟩
      by_cases hw : timer.workerId = w
      · rw [if_pos hw]
        exact .fired timer.id rfl (by rw [hstarts, decide_eq_true hw]) ((hin w v hv).mpr hw)
      · rw [if_neg hw, hother w v hv hw]
        exact .idle rfl (by rw [hstarts, decide_eq_false hw])
  · have hgo : s.onRecoveryTimer o timer reading =
        s1.probed o timer.workerId reading.now false := by
      simp only [onRecoveryTimer, hs1, if_neg hsocket]
    rw [hgo]
    cases hv : s1.recovery timer.workerId with
    | none =>
        rw [probed_of_none hv]
        refine ⟨hcleared, fun p hp => .inl (hprobes ▸ hp), hnext ▸ Nat.le_refl _, habsent, ?_⟩
        intro w v hw
        have hne : timer.workerId ≠ w := by
          rintro rfl
          rw [hview _ v hw] at hv
          cases hv
        refine ⟨v, ?_, .idle rfl (by rw [hstarts, decide_eq_false hne])⟩
        rw [hview w v hw, hother w v hw hne]
    | some v1 =>
        have hprobed := hcleared.recovers_probed (o := o) hv reading.now false
        refine ⟨hprobed.numbered, fun p hp => .inl (hprobes ▸ hprobed.probes ▸ hp),
          hnext ▸ hprobed.nextProbe ▸ Nat.le_refl _,
          fun w hw => hprobed.absent hv (habsent w hw), ?_⟩
        intro w v hw
        by_cases hne : timer.workerId = w
        · subst hne
          obtain rfl := Option.some.inj (hv.symm.trans (hview _ v hw))
          exact ⟨_, hprobed.self, .refused timer.id _ rfl (by rw [hstarts, decide_eq_true rfl])
            ((hin _ v hw).mpr rfl)⟩
        · refine ⟨v, ?_, .idle rfl (by rw [hstarts, decide_eq_false hne])⟩
          rw [hprobed.recovery, Function.update_of_ne (Ne.symm hne), hview w v hw,
            hother w v hw hne]

/-- One probe less. -/
theorem Numbered.filter_probes (h : s.Numbered) {probe : Probe} (hmem : probe ∈ s.probes) :
    ∃ before after, s.probes = before ++ probe :: after ∧
      s.probes.filter (fun p => p.id ≠ probe.id) = before ++ after := by
  obtain ⟨before, after, hsplit⟩ := List.append_of_mem hmem
  refine ⟨before, after, hsplit, ?_⟩
  have hnodup := h.probes
  rw [hsplit, List.map_append, List.map_cons, List.nodup_middle, List.nodup_cons] at hnodup
  have hkeep : ∀ p ∈ before ++ after, p.id ≠ probe.id := by
    intro p hp heq
    apply hnodup.1
    rw [← List.map_append, ← heq]
    exact List.mem_map_of_mem hp
  rw [hsplit, List.filter_append, List.filter_cons_of_neg (by simp), ← List.filter_append]
  apply List.filter_eq_self.mpr
  intro p hp
  simpa using hkeep p hp

/-- A probe is answered. -/
theorem Numbered.turns_probe (h : s.Numbered) {probe : Probe} {id : ℕ}
    (hfind : s.probes.find? (fun p => p.id = id) = some probe) (now : ℤ) (alive : Bool) :
    Turns o s (.probe id now alive) (s.onProbe o probe now alive) := by
  have hmem : probe ∈ s.probes := List.mem_of_find?_eq_some hfind
  obtain ⟨before, after, hsplit, hrest⟩ := h.filter_probes hmem
  generalize hs1 : ({ s with probes := s.probes.filter fun p => p.id ≠ probe.id } : WorkerPool) = s1
  have hsub : s1.probes ⊆ s.probes := by
    rw [← hs1]
    exact List.filter_sublist.subset
  have hnext : s1.nextProbe = s.nextProbe := hs1 ▸ rfl
  have habsent : ∀ w, s.recovery w = none → s1.recovery w = none :=
    fun _ => absent_of_workers (hs1 ▸ rfl)
  have hdropped : s1.Numbered := by
    rw [← hs1]
    exact
      { timers := h.timers
        timer := h.timer
        recorded := h.recorded
        own := h.own
        probes := h.probes.sublist (List.filter_sublist.map Probe.id)
        probe := fun p hp => h.probe p (List.mem_of_mem_filter hp) }
  have hcount : ∀ w, s.probesOf w = s1.probesOf w + if probe.workerId = w then 1 else 0 := by
    intro w
    have hp1 : s1.probes = before ++ after := by
      rw [← hs1]
      exact hrest
    rw [probesOf, probesOf, hp1, hsplit, List.countP_append, List.countP_append, List.countP_cons]
    simp only [decide_eq_true_eq]
    omega
  have hview : ∀ w v, s.recovery w = some v →
      s1.recovery w = some { v with probes := s1.probesOf w } := by
    intro w v hv
    obtain ⟨e, he, rfl⟩ := exists_of_recovery hv
    subst hs1
    exact recovery_of_get?
      (s := { s with probes := s.probes.filter fun p => p.id ≠ probe.id }) he
  have hkept : ∀ w v, s.recovery w = some v → probe.workerId ≠ w → s1.recovery w = some v := by
    intro w v hv hw
    have hsame : s1.probesOf w = v.probes := by
      obtain ⟨e, he, rfl⟩ := exists_of_recovery hv
      have hone := hcount w
      rw [if_neg hw] at hone
      exact hone.symm
    rw [hview w v hv, hsame]
  have hgo : s.onProbe o probe now alive = s1.probed o probe.workerId now alive := by
    simp only [onProbe, ← hs1]
  rw [hgo]
  cases hv : s1.recovery probe.workerId with
  | none =>
      rw [probed_of_none hv]
      refine ⟨hdropped, fun p hp => .inl (hsub hp), hnext ▸ Nat.le_refl _, habsent, ?_⟩
      intro w v hw
      have hne : probe.workerId ≠ w := by
        rintro rfl
        rw [hview _ v hw] at hv
        cases hv
      exact ⟨v, hkept w v hw hne, .idle rfl rfl⟩
  | some v1 =>
      have hprobed := hdropped.recovers_probed (o := o) hv now alive
      refine ⟨hprobed.numbered, fun p hp => .inl (hsub (hprobed.probes ▸ hp)),
        hnext ▸ hprobed.nextProbe ▸ Nat.le_refl _,
        fun w hw => hprobed.absent hv (habsent w hw), ?_⟩
      intro w v hw
      by_cases hne : probe.workerId = w
      · subst hne
        obtain rfl := Option.some.inj (hv.symm.trans (hview _ v hw))
        have hprobes : v.probes = s1.probesOf probe.workerId + 1 := by
          obtain ⟨e, he, rfl⟩ := exists_of_recovery hw
          have hone := hcount probe.workerId
          rw [if_pos rfl] at hone
          exact hone
        refine ⟨_, hprobed.self, ?_⟩
        have hturn := Turn.answered (o := o) (s := s) (a := .probe id now alive)
          (w := probe.workerId) (v := v) s1.nextTimer alive rfl rfl (by omega) ?_
        · rw [show v.probes - 1 = s1.probesOf probe.workerId by omega] at hturn
          exact hturn
        · intro halive hcrashed
          subst halive
          simp only [resets, rearms, hfind, Option.any_some, decide_true, Bool.true_and,
            Bool.false_or, decide_eq_true_eq]
          exact (crashed_iff hw).mp hcrashed
      · refine ⟨v, ?_, .idle rfl rfl⟩
        rw [hprobed.recovery, Function.update_of_ne (Ne.symm hne), hkept w v hw hne]

theorem Rests.restarts_after {marked : ℤ → Prop} {t : WorkerPool} (hr : s.Rests t)
    (h : Restarts o marked t s') : Restarts o marked s s' where
  numbered := h.numbered
  probes := h.probes.trans hr.probes
  nextProbe := h.nextProbe.trans hr.nextProbe
  absent := hr.recovery ▸ h.absent
  recovery := hr.recovery ▸ h.recovery

/-- What happens to a socket leaves its run's worker as broken as it was. -/
theorem broken_setRun (s : WorkerPool) (r : ℕ) {f : Run → Run}
    (hf : ∀ run, (f run).done = run.done ∧ (f run).workerId = run.workerId) (w : ℤ) :
    (s.setRun r f).broken r w = s.broken r w := by
  have hstatus : (s.setRun r f).status w = s.status w := rfl
  rw [broken, getElem?_setRun, if_pos rfl, hstatus, broken]
  cases s.runs[r]? with
  | none => rfl
  | some run => simp only [Option.map_some, (hf run).1, (hf run).2]

theorem Numbered.restarts_onError (h : s.Numbered) (r : ℕ) (message : JsString) :
    Restarts o (fun w => s.broken r w = true) s (s.onError o r message) := by
  unfold onError
  split
  · rename_i hnone
    exact (Rests.refl s).restarts h fun w _ _ hm => by simp [broken, hnone] at hm
  · exact h.restarts_failRun r rfl

theorem Numbered.restarts_onClose (h : s.Numbered) (r : ℕ) :
    Restarts o (fun w => s.broken r w = true) s (s.onClose o r) := by
  unfold onClose
  split
  · rename_i hnone
    exact (Rests.refl s).restarts h fun w _ _ hm => by simp [broken, hnone] at hm
  · rename_i run hr
    split
    · rename_i hdone
      exact (Rests.refl s).restarts h fun w _ _ hm => by simp [broken, hr, hdone] at hm
    · exact h.restarts_failRun r rfl

/-- The socket is over before its run fails. -/
theorem Restarts.after_setRun {r : ℕ} {f : Run → Run}
    (hf : ∀ run, (f run).done = run.done ∧ (f run).workerId = run.workerId)
    (h : Restarts o (fun w => (s.setRun r f).broken r w = true) (s.setRun r f) s') :
    Restarts o (fun w => s.broken r w = true) s s' := by
  simp only [broken_setRun s r hf] at h
  exact (rests_setRun s r f).restarts_after h

/-- What a step does to the recoveries. -/
theorem Numbered.turns (h : s.Numbered) (hs : poolStep o s a = some s') : Turns o s a s' := by
  have hrest : ∀ {t : WorkerPool}, s.Rests t → (∀ w, s.rearms o a w = false) →
      (∀ w, s.starts a w = false) → Turns o s a t := by
    intro t hr hno hstart
    exact (hr.restarts h fun w _ _ hm => by simp [hno w] at hm).turns hstart
  unfold poolStep at hs
  split at hs
  · cases hs
  cases a with
  | infer reading request =>
      dsimp only at hs
      split at hs
      · cases hs
      · obtain rfl := Option.some.inj hs
        refine Restarts.turns ?_ fun _ => rfl
        have hrefresh := h.restarts_refreshWorkerReadiness (o := o) reading
        obtain hnone | ⟨w, hw, heq⟩ := infer_cases (o := o) s reading request
        · rw [hnone]
          exact hrefresh
        · rw [heq]
          refine hrefresh.rests (Rests.trans (rests_setWorker _ w ?_) (rests_of_eq rfl rfl rfl rfl rfl))
          intro e he
          rw [status_of_get? he, Option.some_inj] at hw
          exact ⟨by simp [hw], rfl, rfl⟩
  | getHealth reading =>
      obtain rfl := Option.some.inj hs
      exact (h.restarts_refreshWorkerReadiness reading).turns fun _ => rfl
  | supervisor now msg =>
      obtain rfl := Option.some.inj hs
      cases msg with
      | workerCrashed w requestId =>
          refine Restarts.turns ?_ fun _ => rfl
          simp only [rearms, decide_eq_true_eq]
          exact h.restarts_markWorkerCrashed w requestId
      | workerRestarted w =>
          refine Restarts.turns ?_ fun _ => rfl
          simp only [rearms, decide_eq_true_eq]
          exact h.restarts_workerRestarted w now
      | workerReady w => exact h.turns_workerReady w now now
  | connect r =>
      obtain ⟨-, -, -, rfl⟩ := guardRun_eq hs
      exact hrest (rests_setRun s r _) (fun _ => rfl) fun _ => rfl
  | data r chunk =>
      obtain ⟨-, -, -, rfl⟩ := guardRun_eq hs
      exact hrest (rests_onData s r chunk) (fun _ => rfl) fun _ => rfl
  | error r message =>
      obtain ⟨-, -, -, rfl⟩ := guardRun_eq hs
      have herrored : (s.errored r).Numbered := (rests_setRun s r _).numbered h
      have hfail := herrored.restarts_onError (o := o) r message
      have hrestarts := Restarts.after_setRun (fun _ => ⟨rfl, rfl⟩)
        (f := fun run => { run with destroyed := true, destroyError := none }) hfail
      exact hrestarts.turns fun _ => rfl
  | close r =>
      obtain ⟨-, -, -, rfl⟩ := guardRun_eq hs
      have hclosed : (s.closed r).Numbered := (rests_setRun s r _).numbered h
      have hfail := hclosed.restarts_onClose (o := o) r
      have hrestarts := Restarts.after_setRun (fun _ => ⟨rfl, rfl⟩)
        (f := fun run => { run with destroyed := true, closed := true }) hfail
      exact hrestarts.turns fun _ => rfl
  | connectTimeout r =>
      obtain ⟨run, hr, -, rfl⟩ := guardRun_eq hs
      refine hrest ?_ (fun _ => rfl) fun _ => rfl
      simp only [connectTimeout, hr]
      exact (rests_setRun s r _).trans (rests_destroy _ r _)
  | cancel r =>
      obtain ⟨-, -, -, rfl⟩ := guardRun_eq hs
      exact hrest (rests_failInFlight s r rfl) (fun _ => rfl) fun _ => rfl
  | recoveryTimer id reading =>
      obtain ⟨timer, hfind, rfl⟩ := Option.map_eq_some_iff.mp hs
      exact h.turns_recoveryTimer hfind reading
  | probe id now alive =>
      obtain ⟨probe, hfind, rfl⟩ := Option.map_eq_some_iff.mp hs
      exact h.turns_probe hfind now alive

end WorkerPool

end ServeInfer.ApiServer
