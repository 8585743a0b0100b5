import ServeInfer.ApiServer.PoolSteps

/-!
# One worker's recovery

What the pool holds of a worker's recovery: its entry's fields, its pending
timers and its probes in flight. Each operation that recovers a worker changes
this for that worker alone, as a small machine on such views does.
-/

namespace ServeInfer.ApiServer

/-- A worker's recovery: what its entry says, the numbers of its pending timers, and how many
probes of it are in flight. -/
@[ext] structure Recovery where
  crashed : Bool
  recorded : Option ℕ
  attempt : ℤ
  timers : List ℕ
  probes : ℕ
  deriving DecidableEq

namespace Recovery

/-- The steps that are still to come. -/
def outstanding (v : Recovery) : ℕ := v.timers.length + v.probes

/-- The recorded timer is cleared. -/
def clear (v : Recovery) : Recovery :=
  { v with timers := v.timers.filter fun id => some id ≠ v.recorded }

/-- Another attempt, if the worker is crashed and the budget allows one. -/
def schedule (limit : ℤ) (id : ℕ) (v : Recovery) : Recovery :=
  if v.crashed = false ∨ limit ≤ v.attempt then v
  else { v with recorded := some id, attempt := v.attempt + 1, timers := v.timers ++ [id] }

/-- The chain starts over with a whole budget. -/
def rearm (limit : ℤ) (recorded : Option ℕ) (id : ℕ) (v : Recovery) : Recovery :=
  { v.clear with crashed := true, recorded := recorded, attempt := 0 }.schedule limit id

/-- The worker is back. -/
def ready (v : Recovery) : Recovery :=
  { v with crashed := false, recorded := none, attempt := 0 }

/-- A timer fires. -/
def fire (id : ℕ) (v : Recovery) : Recovery :=
  { v with timers := v.timers.filter fun t => t ≠ id }

/-- A probe's answer. -/
def answer (limit : ℤ) (id : ℕ) (alive : Bool) (v : Recovery) : Recovery :=
  if v.crashed = false then v else if alive then v.ready else v.schedule limit id

end Recovery

namespace WorkerPool

variable {o : Options} {s s' s'' : WorkerPool} {w : ℤ} {e : WorkerEntry} {v v' : Recovery}

def timersOf (s : WorkerPool) (w : ℤ) : List ℕ :=
  (s.timers.filter fun t => t.workerId = w).map RecoveryTimer.id

def probesOf (s : WorkerPool) (w : ℤ) : ℕ := s.probes.countP fun p => p.workerId = w

def recovery (s : WorkerPool) (w : ℤ) : Option Recovery :=
  (s.workers.get? w).map fun e =>
    ⟨e.status = .crashed, e.recoveryTimer, e.recoveryAttempt, s.timersOf w, s.probesOf w⟩

/-- Timers and probes have numbers of their own, and what an entry records is a timer of its
worker's, if it is still a timer. -/
structure Numbered (s : WorkerPool) : Prop where
  timers : (s.timers.map RecoveryTimer.id).Nodup
  timer : ∀ t ∈ s.timers, t.id < s.nextTimer
  recorded : ∀ w e id, s.workers.get? w = some e → e.recoveryTimer = some id → id < s.nextTimer
  own : ∀ t ∈ s.timers, ∀ w e, s.workers.get? w = some e → e.recoveryTimer = some t.id →
    t.workerId = w
  probes : (s.probes.map Probe.id).Nodup
  probe : ∀ p ∈ s.probes, p.id < s.nextProbe

@[simp] theorem timers_setWorker (s : WorkerPool) (w : ℤ) (f : WorkerEntry → WorkerEntry) :
    (s.setWorker w f).timers = s.timers := by
  cases h : s.workers.get? w <;> simp only [setWorker, h]

@[simp] theorem nextTimer_setWorker (s : WorkerPool) (w : ℤ) (f : WorkerEntry → WorkerEntry) :
    (s.setWorker w f).nextTimer = s.nextTimer := by
  cases h : s.workers.get? w <;> simp only [setWorker, h]

@[simp] theorem probes_setWorker (s : WorkerPool) (w : ℤ) (f : WorkerEntry → WorkerEntry) :
    (s.setWorker w f).probes = s.probes := by
  cases h : s.workers.get? w <;> simp only [setWorker, h]

@[simp] theorem nextProbe_setWorker (s : WorkerPool) (w : ℤ) (f : WorkerEntry → WorkerEntry) :
    (s.setWorker w f).nextProbe = s.nextProbe := by
  cases h : s.workers.get? w <;> simp only [setWorker, h]

theorem recovery_of_get? (he : s.workers.get? w = some e) :
    s.recovery w = some ⟨e.status = .crashed, e.recoveryTimer, e.recoveryAttempt, s.timersOf w,
      s.probesOf w⟩ := by
  rw [recovery, he, Option.map_some]

theorem exists_of_recovery (h : s.recovery w = some v) :
    ∃ e, s.workers.get? w = some e ∧ v = ⟨e.status = .crashed, e.recoveryTimer, e.recoveryAttempt,
      s.timersOf w, s.probesOf w⟩ := by
  obtain ⟨e, he, rfl⟩ := Option.map_eq_some_iff.mp h
  exact ⟨e, he, rfl⟩

/-- An operation that leaves every worker's recovery as it is. -/
structure Rests (s s' : WorkerPool) : Prop where
  recovery : s'.recovery = s.recovery
  numbered : s.Numbered → s'.Numbered
  probes : s'.probes = s.probes
  nextProbe : s'.nextProbe = s.nextProbe

theorem Rests.refl (s : WorkerPool) : s.Rests s := ⟨rfl, id, rfl, rfl⟩

theorem Rests.trans (h : s.Rests s') (h' : s'.Rests s'') : s.Rests s'' where
  recovery := h'.recovery.trans h.recovery
  numbered := fun hs => h'.numbered (h.numbered hs)
  probes := h'.probes.trans h.probes
  nextProbe := h'.nextProbe.trans h.nextProbe

/-- An operation on one worker's recovery, which is now `v`. -/
structure Recovers (s s' : WorkerPool) (w : ℤ) (v : Recovery) : Prop where
  recovery : s'.recovery = Function.update s.recovery w (some v)
  numbered : s'.Numbered
  probes : s'.probes = s.probes
  nextProbe : s'.nextProbe = s.nextProbe

theorem Recovers.self (h : s.Recovers s' w v) : s'.recovery w = some v := by
  rw [h.recovery, Function.update_self]

theorem Recovers.trans (h : s.Recovers s' w v) (h' : s'.Recovers s'' w v') :
    s.Recovers s'' w v' where
  recovery := by rw [h'.recovery, h.recovery, Function.update_idem]
  numbered := h'.numbered
  probes := h'.probes.trans h.probes
  nextProbe := h'.nextProbe.trans h.nextProbe

theorem Recovers.absent (h : s.Recovers s' w v) (hv : s.recovery w = some v') {w' : ℤ}
    (hw : s.recovery w' = none) : s'.recovery w' = none := by
  have hne : w' ≠ w := by
    rintro rfl
    rw [hv] at hw
    cases hw
  rw [h.recovery, Function.update_of_ne hne, hw]

theorem Rests.recovers (h : s.Rests s') (h' : s'.Recovers s'' w v) : s.Recovers s'' w v where
  recovery := h.recovery ▸ h'.recovery
  numbered := h'.numbered
  probes := h'.probes.trans h.probes
  nextProbe := h'.nextProbe.trans h.nextProbe

/-- Doing nothing to a worker. -/
theorem Numbered.recovers_refl (h : s.Numbered) (hv : s.recovery w = some v) :
    s.Recovers s w v where
  recovery := by rw [← hv, Function.update_eq_self]
  numbered := h
  probes := rfl
  nextProbe := rfl

/-- The entries are what they were, or record nothing. -/
theorem Numbered.setWorker (h : s.Numbered) {f : WorkerEntry → WorkerEntry}
    (hf : ∀ e, s.workers.get? w = some e →
      (f e).recoveryTimer = e.recoveryTimer ∨ (f e).recoveryTimer = none) :
    (s.setWorker w f).Numbered := by
  have hentry : ∀ w' e' id, (s.setWorker w f).workers.get? w' = some e' →
      e'.recoveryTimer = some id →
      ∃ e, s.workers.get? w' = some e ∧ e.recoveryTimer = some id := by
    intro w' e' id he' hid
    rw [get?_setWorker] at he'
    split at he'
    · rename_i heq
      subst heq
      obtain ⟨e, he, rfl⟩ := Option.map_eq_some_iff.mp he'
      rcases hf e he with hsame | hnone
      · exact ⟨e, he, hsame ▸ hid⟩
      · rw [hnone] at hid
        cases hid
    · exact ⟨e', he', hid⟩
  constructor
  · rw [timers_setWorker]
    exact h.timers
  · rw [timers_setWorker, nextTimer_setWorker]
    exact h.timer
  · intro w' e' id he' hid
    obtain ⟨e, he, hrec⟩ := hentry w' e' id he' hid
    rw [nextTimer_setWorker]
    exact h.recorded w' e id he hrec
  · intro t ht w' e' he' hid
    obtain ⟨e, he, hrec⟩ := hentry w' e' t.id he' hid
    rw [timers_setWorker] at ht
    exact h.own t ht w' e he hrec
  · rw [probes_setWorker]
    exact h.probes
  · rw [probes_setWorker, nextProbe_setWorker]
    exact h.probe

theorem timersOf_setWorker (s : WorkerPool) (w w' : ℤ) (f : WorkerEntry → WorkerEntry) :
    (s.setWorker w f).timersOf w' = s.timersOf w' := by
  rw [timersOf, timers_setWorker, timersOf]

theorem probesOf_setWorker (s : WorkerPool) (w w' : ℤ) (f : WorkerEntry → WorkerEntry) :
    (s.setWorker w f).probesOf w' = s.probesOf w' := by
  rw [probesOf, probes_setWorker, probesOf]

/-- Changing a present worker's entry, but not the number it records unless to drop it. -/
theorem Numbered.recovers_setWorker (h : s.Numbered) (he : s.workers.get? w = some e)
    {f : WorkerEntry → WorkerEntry}
    (hf : (f e).recoveryTimer = e.recoveryTimer ∨ (f e).recoveryTimer = none) :
    s.Recovers (s.setWorker w f) w
      ⟨(f e).status = .crashed, (f e).recoveryTimer, (f e).recoveryAttempt, s.timersOf w,
        s.probesOf w⟩ where
  recovery := by
    funext w'
    rw [recovery, get?_setWorker, timersOf_setWorker, probesOf_setWorker]
    by_cases hw : w = w'
    · subst hw
      rw [if_pos rfl, he, Option.map_some, Option.map_some, Function.update_self]
    · rw [if_neg hw, Function.update_of_ne (Ne.symm hw), recovery]
  numbered := by
    apply h.setWorker
    intro e' he'
    obtain rfl := Option.some.inj (he.symm.trans he')
    exact hf
  probes := probes_setWorker s w f
  nextProbe := nextProbe_setWorker s w f

/-- Changing what a recovery does not depend on. -/
theorem rests_setWorker (s : WorkerPool) (w : ℤ) {f : WorkerEntry → WorkerEntry}
    (hf : ∀ e, s.workers.get? w = some e → ((f e).status = .crashed ↔ e.status = .crashed) ∧
      (f e).recoveryTimer = e.recoveryTimer ∧ (f e).recoveryAttempt = e.recoveryAttempt) :
    s.Rests (s.setWorker w f) where
  recovery := by
    funext w'
    rw [recovery, get?_setWorker, timersOf_setWorker, probesOf_setWorker, recovery]
    split
    · rename_i heq
      subst heq
      cases he : s.workers.get? w with
      | none => rfl
      | some e =>
          obtain ⟨hstatus, htimer, hattempt⟩ := hf e he
          simp only [Option.map_some, hstatus, htimer, hattempt]
    · rfl
  numbered := fun h => h.setWorker fun e he => .inl (hf e he).2.1
  probes := probes_setWorker s w f
  nextProbe := nextProbe_setWorker s w f

/-- An operation that leaves the entries, the timers and the probes alone. -/
theorem rests_of_eq (hw : s'.workers = s.workers) (ht : s'.timers = s.timers)
    (hn : s'.nextTimer = s.nextTimer) (hp : s'.probes = s.probes)
    (hm : s'.nextProbe = s.nextProbe) : s.Rests s' where
  recovery := by
    funext w
    rw [recovery, timersOf, probesOf, hw, ht, hp]
    rfl
  numbered := fun h =>
    { timers := ht ▸ h.timers
      timer := ht ▸ hn ▸ h.timer
      recorded := hw ▸ hn ▸ h.recorded
      own := ht ▸ hw ▸ h.own
      probes := hp ▸ h.probes
      probe := hp ▸ hm ▸ h.probe }
  probes := hp
  nextProbe := hm

/-- Dropping timers keeps the numbers in order. -/
theorem Numbered.clearTimeout (h : s.Numbered) (timer : Option ℕ) :
    (s.clearTimeout timer).Numbered where
  timers := h.timers.sublist (List.filter_sublist.map RecoveryTimer.id)
  timer := fun t ht => h.timer t (List.mem_of_mem_filter ht)
  recorded := h.recorded
  own := fun t ht => h.own t (List.mem_of_mem_filter ht)
  probes := h.probes
  probe := h.probe

theorem timersOf_clearTimeout (s : WorkerPool) (timer : Option ℕ) (w : ℤ) :
    (s.clearTimeout timer).timersOf w = (s.timersOf w).filter fun id => some id ≠ timer := by
  simp only [timersOf, WorkerPool.clearTimeout, List.filter_map, List.filter_filter]
  exact congrArg _ (List.filter_congr fun t _ => Bool.and_comm _ _)

/-- Clearing a timer that is no other worker's. -/
theorem Numbered.recovers_clearTimeout (h : s.Numbered) {timer : Option ℕ}
    (he : s.workers.get? w = some e) (hown : ∀ t ∈ s.timers, some t.id = timer → t.workerId = w) :
    s.Recovers (s.clearTimeout timer) w
      ⟨e.status = .crashed, e.recoveryTimer, e.recoveryAttempt,
        (s.timersOf w).filter fun id => some id ≠ timer, s.probesOf w⟩ where
  recovery := by
    funext w'
    by_cases hw : w' = w
    · subst hw
      rw [Function.update_self, ← timersOf_clearTimeout]
      exact recovery_of_get? he
    · have hother : (s.clearTimeout timer).timersOf w' = s.timersOf w' := by
        simp only [timersOf, WorkerPool.clearTimeout, List.filter_filter]
        refine congrArg _ (List.filter_congr fun t ht => ?_)
        by_cases hid : some t.id = timer
        · have hne : t.workerId ≠ w' := fun heq => hw (heq.symm.trans (hown t ht hid))
          simp [hne]
        · simp [hid]
      rw [Function.update_of_ne hw, recovery, recovery, hother]
      rfl
  numbered := h.clearTimeout timer
  probes := rfl
  nextProbe := rfl

/-- `clearTimeout` of what the worker's entry records. -/
theorem Numbered.recovers_clear (h : s.Numbered) (he : s.workers.get? w = some e)
    (hv : s.recovery w = some v) : s.Recovers (s.clearTimeout e.recoveryTimer) w v.clear := by
  obtain ⟨e', he', rfl⟩ := exists_of_recovery hv
  obtain rfl := Option.some.inj (he.symm.trans he')
  exact h.recovers_clearTimeout he fun t ht hid => h.own t ht w e he hid.symm

/-- `_scheduleRecoveryProbe`. -/
theorem Numbered.recovers_schedule (h : s.Numbered) (hv : s.recovery w = some v) :
    s.Recovers (s.scheduleRecoveryProbe o w) w (v.schedule o.recoveryAttempts s.nextTimer) := by
  obtain ⟨e, he, rfl⟩ := exists_of_recovery hv
  by_cases hstay : e.status ≠ .crashed ∨ o.recoveryAttempts ≤ e.recoveryAttempt
  · have hsame : s.scheduleRecoveryProbe o w = s := by
      simp only [scheduleRecoveryProbe, he]
      split_ifs with hcrashed hspent
      · rfl
      · rfl
      · exact absurd hstay (by simp [hcrashed, hspent])
    rw [hsame, Recovery.schedule, if_pos (by simpa using hstay)]
    exact h.recovers_refl hv
  · obtain ⟨hcrashed, hspent⟩ := not_or.mp hstay
    have hgo : s.scheduleRecoveryProbe o w = (s.setWorker w fun e =>
        { e with recoveryAttempt := e.recoveryAttempt + 1, recoveryTimer := some s.nextTimer }
        ).setTimeout w (o.recoveryMs * (e.recoveryAttempt + 1)) := by
      simp only [scheduleRecoveryProbe, he, if_neg hcrashed, if_neg hspent]
    rw [hgo, Recovery.schedule, if_neg (by simpa using hstay)]
    have hentry : ∀ w' e', (s.setWorker w fun e => { e with
          recoveryAttempt := e.recoveryAttempt + 1
          recoveryTimer := some s.nextTimer }).workers.get? w' = some e' →
        w' = w ∧ e'.recoveryTimer = some s.nextTimer ∨ w' ≠ w ∧ s.workers.get? w' = some e' := by
      intro w' e' he'
      rw [get?_setWorker] at he'
      split at he'
      · rename_i heq
        obtain ⟨-, -, rfl⟩ := Option.map_eq_some_iff.mp he'
        exact .inl ⟨heq.symm, rfl⟩
      · rename_i hne
        exact .inr ⟨Ne.symm hne, he'⟩
    refine ⟨?_, ?_, probes_setWorker s w _, nextProbe_setWorker s w _⟩
    · funext w'
      show (((s.setWorker w _).setTimeout w _).workers.get? w').map _ = _
      simp only [setTimeout, timersOf, probesOf, timers_setWorker, nextTimer_setWorker,
        probes_setWorker, get?_setWorker, List.filter_append, List.map_append]
      by_cases hw : w = w'
      · subst hw
        simp [he]
      · simp [hw, Function.update_of_ne (Ne.symm hw), recovery, timersOf, probesOf]
    · constructor
      · simp only [setTimeout, timers_setWorker, nextTimer_setWorker, List.map_append]
        refine h.timers.append (List.nodup_singleton _) ?_
        intro id hid hnew
        obtain ⟨t, ht, rfl⟩ := List.mem_map.mp hid
        have hlt := h.timer t ht
        rw [List.mem_map] at hnew
        obtain ⟨t', ht', heq⟩ := hnew
        rw [List.mem_singleton.mp ht'] at heq
        exact absurd heq (by simpa using Nat.ne_of_gt hlt)
      · intro t ht
        simp only [setTimeout, timers_setWorker, nextTimer_setWorker, List.mem_append,
          List.mem_singleton] at ht ⊢
        rcases ht with hold | rfl
        · exact Nat.lt_succ_of_lt (h.timer t hold)
        · exact Nat.lt_succ_self _
      · intro w' e' id he' hid
        simp only [setTimeout, nextTimer_setWorker] at he' ⊢
        rcases hentry w' e' he' with ⟨-, hrec⟩ | ⟨-, hold⟩
        · rw [hrec, Option.some.injEq] at hid
          exact hid ▸ Nat.lt_succ_self _
        · exact Nat.lt_succ_of_lt (h.recorded w' e' id hold hid)
      · intro t ht w' e' he' hid
        simp only [setTimeout, timers_setWorker, nextTimer_setWorker, List.mem_append,
          List.mem_singleton] at ht he'
        rcases hentry w' e' he' with ⟨rfl, hrec⟩ | ⟨-, hold⟩
        · rcases ht with hin | rfl
          · rw [hrec, Option.some.injEq] at hid
            exact absurd (h.timer t hin) (by rw [hid]; exact Nat.lt_irrefl _)
          · rfl
        · rcases ht with hin | rfl
          · exact h.own t hin w' e' hold hid
          · exact absurd (h.recorded w' e' _ hold hid) (Nat.lt_irrefl _)
      · simp only [setTimeout, probes_setWorker]
        exact h.probes
      · simp only [setTimeout, probes_setWorker, nextProbe_setWorker]
        exact h.probe

theorem get?_scheduleRecoveryProbe_of_ne (s : WorkerPool) {w w' : ℤ} (hw : w ≠ w') :
    (s.scheduleRecoveryProbe o w).workers.get? w' = s.workers.get? w' := by
  unfold scheduleRecoveryProbe
  split
  · rfl
  · split_ifs
    · rfl
    · rfl
    · show ((s.setWorker w _).setTimeout w _).workers.get? w' = _
      simp only [setTimeout, get?_setWorker, if_neg hw]

/-- The recorded timer is cleared, the worker is crashed with a whole budget, and the chain
starts over. -/
theorem Numbered.recovers_rearm (h : s.Numbered) (he : s.workers.get? w = some e)
    (hv : s.recovery w = some v) {f : WorkerEntry → WorkerEntry} (hcrashed : (f e).status = .crashed)
    (hattempt : (f e).recoveryAttempt = 0)
    (hf : (f e).recoveryTimer = e.recoveryTimer ∨ (f e).recoveryTimer = none) :
    s.Recovers (((s.clearTimeout e.recoveryTimer).setWorker w f).scheduleRecoveryProbe o w) w
      (v.rearm o.recoveryAttempts (f e).recoveryTimer s.nextTimer) := by
  have hcleared := h.recovers_clear he hv
  have hset := hcleared.numbered.recovers_setWorker (w := w) he hf
  have hnext : ((s.clearTimeout e.recoveryTimer).setWorker w f).nextTimer = s.nextTimer :=
    nextTimer_setWorker _ w f
  have hscheduled := hset.numbered.recovers_schedule (o := o) hset.self
  rw [hnext] at hscheduled
  obtain ⟨e', he', rfl⟩ := exists_of_recovery hv
  obtain rfl := Option.some.inj (he.symm.trans he')
  have hview : (s.clearTimeout e.recoveryTimer).recovery w = _ := hcleared.self
  rw [recovery_of_get? (s := s.clearTimeout e.recoveryTimer) he, Option.some.injEq,
    Recovery.ext_iff] at hview
  obtain ⟨-, -, -, htimers, hprobes⟩ := hview
  dsimp only at htimers hprobes
  have hrearm : Recovery.rearm o.recoveryAttempts (f e).recoveryTimer s.nextTimer
      ⟨e.status = .crashed, e.recoveryTimer, e.recoveryAttempt, s.timersOf w, s.probesOf w⟩ =
      Recovery.schedule o.recoveryAttempts s.nextTimer
        ⟨(f e).status = .crashed, (f e).recoveryTimer, (f e).recoveryAttempt,
          (s.clearTimeout e.recoveryTimer).timersOf w,
          (s.clearTimeout e.recoveryTimer).probesOf w⟩ := by
    rw [htimers, hprobes, hcrashed, hattempt]
    rfl
  rw [hrearm]
  exact (hcleared.trans hset).trans hscheduled

/-- The worker is crashed from now on. -/
theorem Numbered.recovers_crashed (h : s.Numbered) (he : s.workers.get? w = some e)
    (hv : s.recovery w = some v) :
    s.Recovers (s.setWorker w fun e => { e with status := .crashed }) w
      { v with crashed := true } := by
  obtain ⟨e', he', rfl⟩ := exists_of_recovery hv
  obtain rfl := Option.some.inj (he.symm.trans he')
  exact h.recovers_setWorker he (.inl rfl)

/-- What a recovery that starts over may look like. -/
def Rearmed (o : Options) (v v' : Recovery) : Prop :=
  ∃ recorded id, v' = v.rearm o.recoveryAttempts recorded id

/-- `_quarantineAfterTransportFailure` of a worker that is not crashed. -/
theorem Numbered.recovers_quarantine (h : s.Numbered) (he : s.workers.get? w = some e)
    (hup : e.status ≠ .crashed) (hv : s.recovery w = some v) :
    ∃ v', Rearmed o v v' ∧ s.Recovers (s.quarantineAfterTransportFailure o w) w v' := by
  have hcrashed := h.recovers_crashed he hv
  have he' : (s.setWorker w fun e => { e with status := .crashed }).workers.get? w =
      some { e with status := .crashed } := by
    rw [get?_setWorker, if_pos rfl, he, Option.map_some]
  have hrearm := hcrashed.numbered.recovers_rearm (o := o) he' hcrashed.self
    (f := fun e => { e with recoveryAttempt := 0 }) rfl rfl (.inl rfl)
  have hgo : s.quarantineAfterTransportFailure o w =
      ((((s.setWorker w fun e => { e with status := .crashed }).clearTimeout
        e.recoveryTimer).setWorker w fun e => { e with recoveryAttempt := 0 }
        ).scheduleRecoveryProbe o w) := by
    simp only [quarantineAfterTransportFailure, he, if_neg hup]
  rw [hgo]
  exact ⟨_, ⟨_, _, rfl⟩, hcrashed.trans hrearm⟩

theorem quarantine_of_crashed (he : s.status w = some .crashed ∨ s.status w = none) :
    s.quarantineAfterTransportFailure o w = s := by
  unfold quarantineAfterTransportFailure
  split
  · rfl
  · rename_i e hget
    rw [status_of_get? hget] at he
    rcases he with hcrashed | hnone
    · rw [if_pos (Option.some.inj hcrashed)]
    · cases hnone

/-- The worker has had its grace without a socket. -/
def expired (o : Options) (s : WorkerPool) (reading : Reading) (w : ℤ) : Bool :=
  match s.workers.get? w with
  | none => false
  | some e =>
      !(decide (e.status = .busy ∨ e.status = .crashed)) && !reading.socketExists w &&
        decide (o.startupGraceMs ≤ reading.now - e.startedAt)

/-- A refresh of a worker that is in order, or still starting. -/
theorem rests_refreshWorker {reading : Reading} (hno : s.expired o reading w = false) :
    s.Rests (s.refreshWorker o reading w) := by
  unfold refreshWorker
  split
  · exact .refl s
  · rename_i e he
    simp only [expired, he] at hno
    split_ifs with hsettled hsocket hgrace
    · exact .refl s
    · apply rests_setWorker
      intro e' he'
      obtain rfl := Option.some.inj (he.symm.trans he')
      exact ⟨by simp [(not_or.mp hsettled).2], rfl, rfl⟩
    · simp [hsettled, hsocket, hgrace] at hno
    · apply rests_setWorker
      intro e' he'
      obtain rfl := Option.some.inj (he.symm.trans he')
      exact ⟨by simp [(not_or.mp hsettled).2], rfl, rfl⟩

/-- A refresh that gives a worker up. -/
theorem Numbered.recovers_refreshWorker (h : s.Numbered) {reading : Reading}
    (hexpired : s.expired o reading w = true) (hv : s.recovery w = some v) :
    ∃ v', Rearmed o v v' ∧ s.Recovers (s.refreshWorker o reading w) w v' := by
  obtain ⟨e, he, -⟩ := exists_of_recovery hv
  simp only [expired, he, Bool.and_eq_true, Bool.not_eq_true', decide_eq_false_iff_not,
    decide_eq_true_eq] at hexpired
  obtain ⟨⟨hsettled, hsocket⟩, hgrace⟩ := hexpired
  have hgo : s.refreshWorker o reading w = ((s.clearTimeout e.recoveryTimer).setWorker w fun e =>
      { e with status := .crashed, recoveryTimer := none, recoveryAttempt := 0 }
      ).scheduleRecoveryProbe o w := by
    simp only [refreshWorker, he, if_neg hsettled, hsocket, Bool.false_eq_true, if_false,
      if_pos hgrace]
  rw [hgo]
  exact ⟨_, ⟨_, _, rfl⟩, h.recovers_rearm he hv rfl rfl (.inr rfl)⟩

theorem get?_refreshWorker_of_ne (reading : Reading) {w' : ℤ} (hw : w ≠ w') :
    (s.refreshWorker o reading w).workers.get? w' = s.workers.get? w' := by
  unfold refreshWorker
  split
  · rfl
  · split_ifs
    · rfl
    · rw [get?_setWorker, if_neg hw]
    · rw [get?_scheduleRecoveryProbe_of_ne _ hw, get?_setWorker, if_neg hw]
      rfl
    · rw [get?_setWorker, if_neg hw]

/-- An operation that starts the recovery of the marked workers over and leaves the others'. -/
structure Restarts (o : Options) (marked : ℤ → Prop) (s s' : WorkerPool) : Prop where
  numbered : s'.Numbered
  probes : s'.probes = s.probes
  nextProbe : s'.nextProbe = s.nextProbe
  absent : ∀ w, s.recovery w = none → s'.recovery w = none
  recovery : ∀ w v, s.recovery w = some v → ∃ v', s'.recovery w = some v' ∧
    (marked w ∧ Rearmed o v v' ∨ ¬ marked w ∧ v' = v)

theorem Rests.restarts (hr : s.Rests s') (h : s.Numbered) {marked : ℤ → Prop}
    (hno : ∀ w v, s.recovery w = some v → ¬ marked w) : Restarts o marked s s' where
  numbered := hr.numbered h
  probes := hr.probes
  nextProbe := hr.nextProbe
  absent := fun _ hw => hr.recovery ▸ hw
  recovery := fun w v hv => ⟨v, hr.recovery ▸ hv, .inr ⟨hno w v hv, rfl⟩⟩

theorem Recovers.restarts (hr : s.Recovers s' w v') (hv : s.recovery w = some v)
    (hrearmed : Rearmed o v v') {marked : ℤ → Prop} (hmarked : ∀ w', marked w' ↔ w' = w) :
    Restarts o marked s s' where
  numbered := hr.numbered
  probes := hr.probes
  nextProbe := hr.nextProbe
  absent := fun _ => hr.absent hv
  recovery := by
    intro w' u hu
    rw [hr.recovery]
    by_cases hw : w' = w
    · subst hw
      obtain rfl := Option.some.inj (hv.symm.trans hu)
      exact ⟨v', Function.update_self _ _ _, .inl ⟨(hmarked w').mpr rfl, hrearmed⟩⟩
    · rw [Function.update_of_ne hw]
      exact ⟨u, hu, .inr ⟨fun hm => hw ((hmarked w').mp hm), rfl⟩⟩

theorem Restarts.rests {marked : ℤ → Prop} (h : Restarts o marked s s') (hr : s'.Rests s'') :
    Restarts o marked s s'' where
  numbered := hr.numbered h.numbered
  probes := hr.probes.trans h.probes
  nextProbe := hr.nextProbe.trans h.nextProbe
  absent := hr.recovery ▸ h.absent
  recovery := hr.recovery ▸ h.recovery

/-- A refresh of some workers, each once. -/
theorem Numbered.restarts_refresh (h : s.Numbered) (reading : Reading) {ws : List ℤ}
    (hnodup : ws.Nodup) :
    Restarts o (fun w => w ∈ ws ∧ s.expired o reading w = true) s
      (ws.foldl (refreshWorker o reading) s) := by
  induction ws generalizing s with
  | nil => exact (Rests.refl s).restarts h fun w v _ hm => List.not_mem_nil hm.1
  | cons w ws ih =>
      obtain ⟨hfirst, hrest⟩ := List.nodup_cons.mp hnodup
      rw [List.foldl_cons]
      have hsame : ∀ w' ∈ ws, (s.refreshWorker o reading w).expired o reading w' =
          s.expired o reading w' := by
        intro w' hw'
        have hne : w ≠ w' := fun heq => hfirst (heq ▸ hw')
        rw [expired, get?_refreshWorker_of_ne reading hne, expired]
      have hhead : Restarts o (fun w' => w' = w ∧ s.expired o reading w = true) s
          (s.refreshWorker o reading w) := by
        cases hexpired : s.expired o reading w with
        | false => exact (rests_refreshWorker hexpired).restarts h fun _ _ _ hm => by simp at hm
        | true =>
            cases hv : s.recovery w with
            | none =>
                have hnone : s.workers.get? w = none := Option.map_eq_none_iff.mp hv
                simp [expired, hnone] at hexpired
            | some v =>
                obtain ⟨v', hrearmed, hr⟩ := h.recovers_refreshWorker hexpired hv
                exact hr.restarts hv hrearmed fun w' => by simp
      have htail := ih hhead.numbered hrest
      refine ⟨htail.numbered, htail.probes.trans hhead.probes,
        htail.nextProbe.trans hhead.nextProbe, fun w' hw => htail.absent w' (hhead.absent w' hw), ?_⟩
      intro w' v hv
      obtain ⟨u, hu, hcase⟩ := hhead.recovery w' v hv
      obtain ⟨v', hv', hcase'⟩ := htail.recovery w' u hu
      refine ⟨v', hv', ?_⟩
      rcases hcase with ⟨⟨rfl, hexpired⟩, hrearmed⟩ | ⟨hkept, rfl⟩
      · rcases hcase' with ⟨⟨hmem, -⟩, -⟩ | ⟨-, rfl⟩
        · exact absurd hmem hfirst
        · exact .inl ⟨⟨List.mem_cons_self, hexpired⟩, hrearmed⟩
      · rcases hcase' with ⟨⟨hmem, hexpired⟩, hrearmed⟩ | ⟨hkept', rfl⟩
        · rw [hsame w' hmem] at hexpired
          exact .inl ⟨⟨List.mem_cons_of_mem _ hmem, hexpired⟩, hrearmed⟩
        · refine .inr ⟨?_, rfl⟩
          rintro ⟨hmem, hexpired⟩
          rcases List.mem_cons.mp hmem with rfl | hin
          · exact hkept ⟨rfl, hexpired⟩
          · exact hkept' ⟨hin, by rw [hsame w' hin]; exact hexpired⟩

/-- `_refreshWorkerReadiness`. -/
theorem Numbered.restarts_refreshWorkerReadiness (h : s.Numbered) (reading : Reading) :
    Restarts o (fun w => s.expired o reading w = true) s (s.refreshWorkerReadiness o reading) := by
  have hall := h.restarts_refresh (o := o) reading s.workers.keys_nodup
  refine ⟨hall.numbered, hall.probes, hall.nextProbe, hall.absent, ?_⟩
  intro w v hv
  obtain ⟨e, he, -⟩ := exists_of_recovery hv
  have hmem : w ∈ s.workers.keys := by
    rw [← OrderedMap.has_iff, OrderedMap.has, he, Option.isSome_some]
  obtain ⟨v', hv', hcase⟩ := hall.recovery w v hv
  exact ⟨v', hv', by simpa [hmem] using hcase⟩

theorem rests_setRun (s : WorkerPool) (r : ℕ) (f : Run → Run) : s.Rests (s.setRun r f) :=
  rests_of_eq rfl rfl rfl rfl rfl

theorem rests_settle (s : WorkerPool) (r : ℕ) (outcome : Outcome) :
    s.Rests (s.settle r outcome) :=
  rests_setRun s r _

theorem rests_destroy (s : WorkerPool) (r : ℕ) (err : Option WorkerPoolError) :
    s.Rests (s.destroy r err) :=
  rests_setRun s r _

/-- `cleanup` leaves a crashed worker crashed. -/
theorem rests_cleanup (s : WorkerPool) (r : ℕ) : s.Rests (s.cleanup r) := by
  unfold cleanup
  split
  · exact .refl s
  · rename_i run hr
    split
    · exact .refl s
    · have hdeleted : s.Rests ((s.markClean r).deleteInFlight run.requestId) :=
        rests_of_eq rfl rfl rfl rfl rfl
      apply hdeleted.trans
      apply rests_setWorker
      intro e _
      by_cases hcrashed : e.status = .crashed <;> simp [hcrashed]

theorem rests_end (s : WorkerPool) (r : ℕ) : s.Rests ((s.markDone r).cleanup r) :=
  (rests_setRun s r _).trans (rests_cleanup _ r)

/-- A failure that is not the transport's recovers nothing. -/
theorem rests_abandon (s : WorkerPool) (r : ℕ) (w : ℤ) {err : WorkerPoolError}
    (herr : isTransportFailure err.code = false) : s.Rests (s.abandon o r w err) := by
  have hend : s.abandon o r w err = (s.markDone r).cleanup r := by
    simp only [abandon, herr, Bool.false_eq_true, if_false]
  rw [hend]
  exact rests_end s r

theorem rests_finalizeError (s : WorkerPool) (r : ℕ) {err : WorkerPoolError}
    (herr : isTransportFailure err.code = false) : s.Rests (s.finalizeError o r err) := by
  unfold finalizeError
  split
  · exact .refl s
  · split
    · exact .refl s
    · exact (rests_abandon s r _ herr).trans (rests_settle _ r _)

theorem rests_failInFlight (s : WorkerPool) (r : ℕ) {err : WorkerPoolError}
    (herr : isTransportFailure err.code = false) : s.Rests (s.failInFlight o r err) := by
  unfold failInFlight
  split
  · exact .refl s
  · split
    · split
      · exact .refl s
      · apply Rests.trans _ (rests_settle _ r _)
        exact (rests_abandon s r _ herr).trans (rests_destroy _ r none)
    · exact (rests_destroy s r none).trans (rests_finalizeError _ r herr)

theorem rests_failRun (s : WorkerPool) (r : ℕ) {err : WorkerPoolError}
    (herr : isTransportFailure err.code = false) : s.Rests (s.failRun o r err) := by
  unfold failRun
  split
  · exact .refl s
  · split
    · exact rests_failInFlight s r herr
    · exact rests_finalizeError s r herr

theorem rests_recordDevice (s : WorkerPool) (w : ℤ) (msg : Json) :
    s.Rests (s.recordDevice o w msg) :=
  rests_setWorker s w fun _ _ => ⟨Iff.rfl, rfl, rfl⟩

theorem rests_onResult (s : WorkerPool) (r : ℕ) (msg : Json) : s.Rests (s.onResult o r msg) := by
  unfold onResult
  split
  · exact .refl s
  · split
    · exact .refl s
    · apply Rests.trans _ (rests_settle _ r _)
      apply Rests.trans _ (rests_recordDevice _ _ msg)
      exact (rests_end s r).trans (rests_setRun _ r _)

theorem rests_onLine (s : WorkerPool) (r : ℕ) (line : JsString) :
    s.Rests (s.onLine o r line).1 := by
  unfold onLine
  split
  · exact .refl s
  · split
    · exact .refl s
    · exact rests_failRun s r rfl
    · exact rests_of_eq rfl rfl rfl rfl rfl
    · split_ifs
      · exact rests_of_eq rfl rfl rfl rfl rfl
      · exact rests_setRun s r _
      · exact rests_failRun s r rfl
      · exact rests_onResult s r _
      · exact .refl s

theorem rests_drain (r : ℕ) (lines : List JsString) (s : WorkerPool) :
    s.Rests (drain o r lines s).1 := by
  induction lines generalizing s with
  | nil => exact .refl s
  | cons line lines ih =>
      cases lines with
      | nil => exact .refl s
      | cons next lines =>
          have hline := rests_onLine (o := o) s r (Json.trim line)
          unfold drain
          split
          · rename_i heq
            rw [heq] at hline
            exact hline.trans (ih _)
          · rename_i heq
            rw [heq] at hline
            exact hline

theorem rests_onData (s : WorkerPool) (r : ℕ) (chunk : List UInt8) :
    s.Rests (s.onData o r chunk) := by
  unfold onData
  split
  · exact .refl s
  · exact (rests_drain r _ s).trans (rests_setRun _ r _)

/-- The worker whose recovery starts over when the run's socket fails: the run is not done, and
the worker not crashed. -/
def broken (s : WorkerPool) (r : ℕ) (w : ℤ) : Bool :=
  match s.runs[r]? with
  | none => false
  | some run =>
      !run.done && decide (run.workerId = w) &&
        decide (s.status w ≠ none ∧ s.status w ≠ some .crashed)

/-- A run that is not done fails with its socket: its worker is quarantined. -/
theorem Numbered.restarts_quarantine (h : s.Numbered) {r : ℕ} {run : Run}
    (hr : s.runs[r]? = some run) (hdone : run.done = false) (hrest : s.Rests s') :
    Restarts o (fun w => s.broken r w = true) s
      (s'.quarantineAfterTransportFailure o run.workerId) := by
  have hmarked : ∀ w, s.broken r w = true ↔
      w = run.workerId ∧ s.status w ≠ none ∧ s.status w ≠ some .crashed := by
    intro w
    simp only [broken, hr, hdone, Bool.not_false, Bool.true_and, Bool.and_eq_true,
      decide_eq_true_eq]
    exact and_congr_left fun _ => eq_comm
  cases hv : s.recovery run.workerId with
  | none =>
      have hnone : s.status run.workerId = none := status_of_none (Option.map_eq_none_iff.mp hv)
      have hnone' : s'.status run.workerId = none := by
        have hget := hrest.recovery ▸ hv
        exact status_of_none (Option.map_eq_none_iff.mp hget)
      rw [quarantine_of_crashed (.inr hnone')]
      refine hrest.restarts h fun w _ _ hm => ?_
      obtain ⟨rfl, hsome, -⟩ := (hmarked w).mp hm
      exact hsome hnone
  | some v =>
      have hv' : s'.recovery run.workerId = some v := hrest.recovery ▸ hv
      obtain ⟨e, he, hve⟩ := exists_of_recovery hv
      obtain ⟨e', he', hve'⟩ := exists_of_recovery hv'
      have hstatus : (e'.status = .crashed) = (e.status = .crashed) := by
        have hcrashed := (congrArg Recovery.crashed hve').symm.trans (congrArg Recovery.crashed hve)
        simpa using hcrashed
      by_cases hcrashed : e.status = .crashed
      · have hst : s'.status run.workerId = some .crashed := by
          rw [status_of_get? he', hstatus.mpr hcrashed]
        rw [quarantine_of_crashed (.inl hst)]
        refine hrest.restarts h fun w _ _ hm => ?_
        obtain ⟨rfl, -, hup⟩ := (hmarked w).mp hm
        rw [status_of_get? he, hcrashed] at hup
        exact hup rfl
      · have hup : e'.status ≠ .crashed := fun hc => hcrashed (hstatus.mp hc)
        obtain ⟨u, hrearmed, hrec⟩ :=
          (hrest.numbered h).recovers_quarantine (o := o) he' hup hv'
        refine (hrest.recovers hrec).restarts hv hrearmed fun w => ?_
        rw [hmarked]
        constructor
        · exact fun hm => hm.1
        · rintro rfl
          refine ⟨rfl, ?_, ?_⟩
          · rw [status_of_get? he]
            simp
          · rw [status_of_get? he]
            simpa using hcrashed

/-- A run fails with its socket. -/
theorem Numbered.restarts_failRun (h : s.Numbered) (r : ℕ) {err : WorkerPoolError}
    (herr : isTransportFailure err.code = true) :
    Restarts o (fun w => s.broken r w = true) s (s.failRun o r err) := by
  cases hr : s.runs[r]? with
  | none =>
      have hsame : s.failRun o r err = s := by simp only [failRun, hr]
      rw [hsame]
      exact (Rests.refl s).restarts h fun w _ _ hm => by simp [broken, hr] at hm
  | some run =>
      cases hdone : run.done with
      | true =>
          have hrest : s.Rests (s.failRun o r err) := by
            unfold failRun
            simp only [hr]
            split
            · rename_i hstream
              simp only [failInFlight, hr, hstream, hdone, if_true]
              exact .refl s
            · rw [finalizeError_done hr hdone]
              exact .refl s
          exact hrest.restarts h fun w _ _ hm => by simp [broken, hr, hdone] at hm
      | false =>
          have habandon := h.restarts_quarantine (o := o) hr hdone (rests_end s r)
          have hquarantine : s.abandon o r run.workerId err =
              ((s.markDone r).cleanup r).quarantineAfterTransportFailure o run.workerId := by
            simp only [abandon, herr, if_true]
          rw [← hquarantine] at habandon
          unfold failRun
          simp only [hr]
          split
          · rename_i hstream
            simp only [failInFlight, hr, hstream, hdone, if_true, Bool.false_eq_true, if_false]
            exact habandon.rests ((rests_destroy _ r none).trans (rests_settle _ r _))
          · simp only [finalizeError, hr, hdone, Bool.false_eq_true, if_false]
            exact habandon.rests (rests_settle _ r _)

end WorkerPool

end ServeInfer.ApiServer
