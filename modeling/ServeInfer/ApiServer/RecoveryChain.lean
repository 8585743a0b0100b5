import ServeInfer.ApiServer.RecoverySteps

/-!
# The recovery chain

While a probe is in flight nothing may start its worker's recovery over: the
probe's answer would go on with the old chain beside the new one. In a run that
keeps to this each worker has one recovery step at a time and stays in its
budget; the first step that does not breaks it.
-/

namespace ServeInfer.ApiServer

namespace Recovery

variable {limit : ℤ} {v : Recovery} {id : ℕ}

/-- One step at most is outstanding, none of them a timer unless the worker is crashed; the entry
records the timer, and each attempt has been paid for. -/
structure Good (limit : ℤ) (v : Recovery) : Prop where
  single : v.outstanding ≤ 1
  idle : v.crashed = false → v.timers = []
  recorded : ∀ id ∈ v.timers, v.recorded = some id
  paid : (v.timers.length : ℤ) ≤ v.attempt
  budget : v.attempt ≤ max limit 0
  probing : v.probes ≠ 0 → 0 < limit

/-- The attempts whose timers have fired. -/
def spent (v : Recovery) : ℤ := v.attempt - v.timers.length

theorem Good.timers_clear (h : v.Good limit) : v.clear.timers = [] := by
  apply List.filter_eq_nil_iff.mpr
  intro id hid
  simp [h.recorded id hid]

theorem Good.fire_timers (h : v.Good limit) (hid : id ∈ v.timers) : (v.fire id).timers = [] := by
  apply List.filter_eq_nil_iff.mpr
  intro t ht
  have hsame : t = id := Option.some.inj ((h.recorded t ht).symm.trans (h.recorded id hid))
  simp [hsame]

/-- A timer that is pending is the only step, and there is a budget for it. -/
theorem Good.of_timer (h : v.Good limit) (hid : id ∈ v.timers) :
    v.timers = [id] ∧ v.probes = 0 ∧ v.crashed = true ∧ 1 ≤ v.attempt ∧ 0 < limit := by
  have hsingle := h.single
  have hpaid := h.paid
  have hbudget := h.budget
  rw [outstanding] at hsingle
  cases hl : v.timers with
  | nil =>
      rw [hl] at hid
      exact absurd hid List.not_mem_nil
  | cons t rest =>
      rw [hl, List.length_cons] at hsingle hpaid
      have hrest : rest = [] := List.eq_nil_of_length_eq_zero (by omega)
      subst hrest
      rw [hl, List.mem_singleton] at hid
      refine ⟨by rw [hid], by omega, ?_, by simpa using hpaid, ?_⟩
      · by_contra hup
        rw [h.idle (by simpa using hup)] at hl
        cases hl
      · simp only [List.length_nil, zero_add, Nat.cast_one] at hpaid
        omega

/-- A worker with nothing outstanding is scheduled. -/
theorem Good.schedule (h : v.Good limit) (hfree : v.outstanding = 0) (id : ℕ) :
    (v.schedule limit id).Good limit := by
  rw [outstanding, Nat.add_eq_zero_iff, List.length_eq_zero_iff] at hfree
  unfold Recovery.schedule
  split
  · exact h
  · rename_i hgo
    obtain ⟨hcrashed, hlimit⟩ := not_or.mp hgo
    have hpaid := h.paid
    have hbudget := h.budget
    rw [hfree.1] at hpaid
    constructor
    · simp [outstanding, hfree.1, hfree.2]
    · exact fun hup => absurd hup hcrashed
    · simp [hfree.1]
    · simpa [hfree.1] using hpaid
    · simp only
      omega
    · exact fun hp => absurd hfree.2 hp

theorem spent_schedule (v : Recovery) (limit : ℤ) (id : ℕ) :
    (v.schedule limit id).spent = v.spent := by
  unfold Recovery.schedule
  split
  · rfl
  · simp only [spent, List.length_append, List.length_singleton, Nat.cast_add, Nat.cast_one]
    omega

theorem crashed_schedule (v : Recovery) (limit : ℤ) (id : ℕ) :
    (v.schedule limit id).crashed = v.crashed := by
  unfold Recovery.schedule
  split <;> rfl

/-- The cleared worker with its whole budget. -/
theorem Good.fresh (h : v.Good limit) (crashed : Bool) (recorded : Option ℕ) :
    { v.clear with crashed := crashed, recorded := recorded, attempt := 0 }.Good limit := by
  have hclear := h.timers_clear
  have hsingle := h.single
  rw [outstanding] at hsingle
  constructor
  · show v.clear.timers.length + v.probes ≤ 1
    rw [hclear, List.length_nil]
    omega
  · exact fun _ => hclear
  · simp [hclear]
  · simp [hclear]
  · exact le_max_right _ _
  · exact h.probing

theorem Good.rearm (h : v.Good limit) (hp : v.probes = 0) (recorded : Option ℕ) (id : ℕ) :
    (v.rearm limit recorded id).Good limit := by
  apply (h.fresh true recorded).schedule
  simp only [outstanding, h.timers_clear, List.length_nil, zero_add]
  exact hp

/-- Starting over beside a probe in flight. -/
theorem Good.rearm_probing (h : v.Good limit) (hp : v.probes ≠ 0) (recorded : Option ℕ)
    (id : ℕ) : ¬ (v.rearm limit recorded id).outstanding ≤ 1 := by
  have hlimit := h.probing hp
  unfold Recovery.rearm Recovery.schedule
  rw [if_neg (by simpa using hlimit)]
  simp only [outstanding, clear, List.length_append, List.length_singleton]
  omega

theorem Good.answer (h : v.Good limit) (hfree : v.outstanding = 0) (alive : Bool) (id : ℕ) :
    (v.answer limit id alive).Good limit := by
  unfold Recovery.answer
  have hempty : v.timers = [] := by
    rw [outstanding, Nat.add_eq_zero_iff, List.length_eq_zero_iff] at hfree
    exact hfree.1
  split_ifs
  · exact h
  · constructor
    · exact h.single
    · exact fun _ => hempty
    · simp [ready, hempty]
    · simp [ready, hempty]
    · exact le_max_right _ _
    · exact h.probing
  · exact h.schedule hfree id

/-- A timer that fires leaves nothing outstanding. -/
theorem Good.fire (h : v.Good limit) (hid : id ∈ v.timers) :
    (v.fire id).Good limit ∧ (v.fire id).outstanding = 0 := by
  obtain ⟨-, hprobes, -, hattempt, -⟩ := h.of_timer hid
  have hnone := h.fire_timers hid
  have hzero : (v.fire id).outstanding = 0 := by
    rw [outstanding, hnone, List.length_nil, zero_add]
    exact hprobes
  refine ⟨?_, hzero⟩
  constructor
  · omega
  · exact fun _ => hnone
  · simp [hnone]
  · rw [hnone]
    exact (by simp : ((([] : List ℕ).length : ℕ) : ℤ) ≤ 1).trans hattempt
  · exact h.budget
  · exact h.probing

/-- The probe that a timer starts. -/
theorem Good.probe (h : v.Good limit) (hid : id ∈ v.timers) :
    { v.fire id with probes := v.probes + 1 }.Good limit := by
  obtain ⟨-, hprobes, -, -, hlimit⟩ := h.of_timer hid
  obtain ⟨hgood, -⟩ := h.fire hid
  have hnone := h.fire_timers hid
  constructor
  · show (v.fire id).timers.length + (v.probes + 1) ≤ 1
    rw [hnone, hprobes]
    exact Nat.le_refl _
  · exact hgood.idle
  · exact hgood.recorded
  · exact hgood.paid
  · exact hgood.budget
  · exact fun _ => hlimit

/-- A probe that is answered leaves nothing outstanding. -/
theorem Good.answered (h : v.Good limit) (hp : v.probes ≠ 0) :
    { v with probes := v.probes - 1 }.Good limit ∧
      { v with probes := v.probes - 1 }.outstanding = 0 := by
  have hsingle := h.single
  rw [outstanding] at hsingle
  have hzero : v.timers.length + (v.probes - 1) = 0 := by omega
  refine ⟨?_, hzero⟩
  constructor
  · exact hzero.le.trans (Nat.zero_le 1)
  · exact h.idle
  · exact h.recorded
  · exact h.paid
  · exact h.budget
  · exact fun _ => h.probing hp

theorem Good.spent_fire (h : v.Good limit) (hid : id ∈ v.timers) :
    (v.fire id).spent = v.spent + 1 := by
  obtain ⟨hone, -⟩ := h.of_timer hid
  rw [spent, h.fire_timers hid, spent, hone]
  simp [Recovery.fire]

end Recovery

namespace WorkerPool

variable {o : Options} {s s' : WorkerPool} {a : PoolAction} {w : ℤ} {v v' : Recovery}

theorem resets_of_rearms (h : s.rearms o a w = true) : s.resets o a w = true := by
  show (s.rearms o a w || _) = true
  rw [h, Bool.true_or]

/-- A step that starts nothing over beside a probe keeps a good recovery good. -/
theorem Turn.good (ht : Turn o s a w v v') (h : v.Good o.recoveryAttempts)
    (hcalm : s.rearms o a w = true → v.probes = 0) : v'.Good o.recoveryAttempts := by
  cases ht with
  | idle _ _ => exact h
  | rearmed _ hrearm hrearmed =>
      obtain ⟨recorded, id, rfl⟩ := hrearmed
      exact h.rearm (hcalm hrearm) recorded id
  | readied _ _ => exact h.fresh false none
  | fired id _ _ hmem => exact h.probe hmem
  | refused id new _ _ hmem =>
      obtain ⟨hgood, hfree⟩ := h.fire hmem
      exact hgood.answer hfree false new
  | answered new alive _ _ hprobe _ =>
      obtain ⟨hgood, hfree⟩ := h.answered hprobe
      exact hgood.answer hfree alive new

/-- Without a reset, what has been spent grows with each probe that is started. -/
theorem Turn.spent (ht : Turn o s a w v v') (h : v.Good o.recoveryAttempts)
    (hreset : s.resets o a w = false) :
    v'.spent = v.spent + if s.starts a w = true then 1 else 0 := by
  cases ht with
  | idle _ hstart => rw [hstart, if_neg Bool.false_ne_true, add_zero]
  | rearmed _ hrearm _ =>
      rw [resets_of_rearms hrearm] at hreset
      cases hreset
  | readied _ hready =>
      rw [hready] at hreset
      cases hreset
  | fired id _ hstart hmem =>
      rw [hstart, if_pos rfl]
      exact h.spent_fire hmem
  | refused id new _ hstart hmem =>
      obtain ⟨-, -, hcrashed, -⟩ := h.of_timer hmem
      have hcrashed' : (v.fire id).crashed ≠ false := by simpa [Recovery.fire] using hcrashed
      rw [hstart, if_pos rfl, Recovery.answer, if_neg hcrashed', if_neg Bool.false_ne_true,
        Recovery.spent_schedule, h.spent_fire hmem]
  | answered new alive _ hstart hprobe halive =>
      rw [hstart, if_neg Bool.false_ne_true, add_zero]
      unfold Recovery.answer
      split_ifs with hup hyes
      · rfl
      · have hon := halive hyes (by simpa using hup)
        rw [hon] at hreset
        cases hreset
      · exact Recovery.spent_schedule _ _ _

/-- Only starting over makes a worker a crashed one. -/
theorem Turn.crashed (ht : Turn o s a w v v') (hrearm : s.rearms o a w = false)
    (hup : v.crashed = false) : v'.crashed = false := by
  cases ht with
  | idle _ _ => exact hup
  | rearmed _ hon _ =>
      rw [hon] at hrearm
      cases hrearm
  | readied _ _ => rfl
  | fired id _ _ _ => exact hup
  | refused id new _ _ _ =>
      have hfired : (v.fire id).crashed = false := hup
      rw [Recovery.answer, if_pos hfired]
      exact hup
  | answered new alive _ _ _ _ =>
      rw [Recovery.answer, if_pos hup]
      exact hup

/-- Each worker has at most one recovery step to come, and one that is not crashed has no
pending timer. -/
def SingleStep (s : WorkerPool) : Prop :=
  ∀ w v, s.recovery w = some v → v.outstanding ≤ 1 ∧ (v.crashed = false → v.timers = [])

/-- The step starts no worker's recovery over while a probe of it is in flight. -/
def Undisturbed (o : Options) (s : WorkerPool) (a : PoolAction) : Prop :=
  ∀ p ∈ s.probes, s.rearms o a p.workerId = false

instance (o : Options) (s : WorkerPool) (a : PoolAction) : Decidable (s.Undisturbed o a) :=
  inferInstanceAs (Decidable (∀ p ∈ s.probes, s.rearms o a p.workerId = false))

/-- Whenever a worker is not crashed, the answer of a probe of it that is in flight changes
nothing, however late it comes. -/
def Harmless (o : Options) (s : WorkerPool) (as : List PoolAction) : Prop :=
  ∀ pre mid id now alive, pre ++ mid ++ [.probe id now alive] <+: as →
    ∀ t u u' w, Machine.exec (poolStep o) s pre = some t →
      Machine.exec (poolStep o) t mid = some u → poolStep o u (.probe id now alive) = some u' →
      ⟨id, w⟩ ∈ t.probes → t.status w ≠ some .crashed → u'.workers.get? w = u.workers.get? w

/-- How many probes of the worker the steps start. -/
def probesStarted (o : Options) (w : ℤ) : WorkerPool → List PoolAction → ℕ
  | _, [] => 0
  | s, a :: as =>
      (if s.starts a w = true then 1 else 0) +
        match poolStep o s a with
        | none => 0
        | some s' => probesStarted o w s' as

/-- Between two resets of a worker's budget it is probed at most as often as the budget says. -/
def WithinBudget (o : Options) (s : WorkerPool) (as : List PoolAction) : Prop :=
  ∀ pre mid, pre ++ mid <+: as → ∀ t w v, Machine.exec (poolStep o) s pre = some t →
    t.recovery w = some v →
    Machine.Guarded (poolStep o) (fun s a => s.resets o a w = false) t mid →
    (probesStarted o w t mid : ℤ) ≤ max o.recoveryAttempts 0

/-- Every worker's recovery is good. -/
structure InOrder (o : Options) (s : WorkerPool) : Prop where
  numbered : s.Numbered
  good : ∀ w v, s.recovery w = some v → v.Good o.recoveryAttempts

theorem InOrder.single (h : InOrder o s) : SingleStep s :=
  fun w v hv => ⟨(h.good w v hv).single, (h.good w v hv).idle⟩

/-- A worker with a probe in flight. -/
theorem exists_probe (hv : s.recovery w = some v) (hp : v.probes ≠ 0) :
    ∃ p ∈ s.probes, p.workerId = w := by
  obtain ⟨e, he, rfl⟩ := exists_of_recovery hv
  obtain ⟨p, hin, hw⟩ := List.countP_pos_iff.mp (Nat.pos_of_ne_zero hp)
  exact ⟨p, hin, by simpa using hw⟩

theorem probes_ne_zero {p : Probe} (hv : s.recovery p.workerId = some v) (hp : p ∈ s.probes) :
    v.probes ≠ 0 := by
  obtain ⟨e, he, rfl⟩ := exists_of_recovery hv
  exact Nat.ne_of_gt (List.countP_pos_iff.mpr ⟨p, hp, by simp⟩)

/-- What starts over is a worker of the pool. -/
theorem present_of_rearms (h : s.rearms o a w = true) : ∃ v, s.recovery w = some v := by
  have hstatus : s.status w ≠ none := by
    intro hnone
    have hget : s.workers.get? w = none := Option.map_eq_none_iff.mp hnone
    have hbroken : ∀ r, s.broken r w = false := by
      intro r
      unfold broken
      split <;> simp [hnone]
    cases a with
    | supervisor now msg => cases msg <;> simp [rearms, hnone] at h
    | infer reading request => simp [rearms, expired, hget] at h
    | getHealth reading => simp [rearms, expired, hget] at h
    | error r message => simp [rearms, hbroken] at h
    | close r => simp [rearms, hbroken] at h
    | _ => cases h
  cases hv : s.recovery w with
  | none => exact absurd (status_of_none (Option.map_eq_none_iff.mp hv)) hstatus
  | some v => exact ⟨v, rfl⟩

theorem Turns.before (h : Turns o s a s') (hv : s'.recovery w = some v') :
    ∃ v, s.recovery w = some v ∧ Turn o s a w v v' := by
  cases hs : s.recovery w with
  | none =>
      rw [h.absent w hs] at hv
      cases hv
  | some v =>
      obtain ⟨u, hu, hturn⟩ := h.recovery w v hs
      obtain rfl := Option.some.inj (hv.symm.trans hu)
      exact ⟨v, rfl, hturn⟩

theorem InOrder.step (h : InOrder o s) (hok : s.Undisturbed o a) (hs : poolStep o s a = some s') :
    InOrder o s' where
  numbered := (h.numbered.turns hs).numbered
  good := by
    intro w v' hv'
    obtain ⟨v, hv, hturn⟩ := (h.numbered.turns hs).before hv'
    refine hturn.good (h.good w v hv) fun hrearm => ?_
    by_contra hp
    obtain ⟨p, hin, rfl⟩ := exists_probe hv hp
    rw [hok p hin] at hrearm
    cases hrearm

/-- Starting over beside a probe spoils the chain at once. -/
theorem InOrder.spoilt (h : InOrder o s) (hbad : ¬ s.Undisturbed o a)
    (hs : poolStep o s a = some s') : ¬ SingleStep s' := by
  obtain ⟨p, hin, hrearm⟩ : ∃ p ∈ s.probes, s.rearms o a p.workerId = true := by
    simpa [Undisturbed] using hbad
  obtain ⟨v, hv⟩ := present_of_rearms hrearm
  obtain ⟨v', hv', hturn⟩ := (h.numbered.turns hs).recovery _ v hv
  intro hsingle
  have hone := (hsingle _ v' hv').1
  cases hturn with
  | rearmed _ _ hrearmed =>
      obtain ⟨recorded, id, rfl⟩ := hrearmed
      exact (h.good _ v hv).rearm_probing (probes_ne_zero hv hin) recorded id hone
  | idle hno _ => simp [hno] at hrearm
  | readied hno _ => simp [hno] at hrearm
  | fired _ hno _ _ => simp [hno] at hrearm
  | refused _ _ hno _ _ => simp [hno] at hrearm
  | answered _ _ hno _ _ _ => simp [hno] at hrearm

/-- Every entry of a new pool is a fresh one. -/
theorem entry_new (o : Options) (now : ℤ) {e : WorkerEntry}
    (he : (WorkerPool.new o now).workers.get? w = some e) : e = { startedAt := now } := by
  suffices hall : ∀ (l : List ℕ) (m : OrderedMap ℤ WorkerEntry),
      (∀ w e, m.get? w = some e → e = { startedAt := now }) →
      ∀ w e, (l.foldl (fun workers (i : ℕ) => workers.set (i : ℤ) { startedAt := now }) m).get? w =
        some e → e = { startedAt := now } by
    exact hall _ _ (fun _ _ hnone => by simp at hnone) _ _ he
  intro l
  induction l with
  | nil => exact fun m hm => hm
  | cons i l ih =>
      refine fun m hm => ih _ fun w' e' he' => ?_
      rw [OrderedMap.get?_set] at he'
      split at he'
      · exact (Option.some.inj he').symm
      · exact hm w' e' he'

theorem inOrder_new (o : Options) (now : ℤ) : InOrder o (.new o now) where
  numbered :=
    { timers := List.nodup_nil
      timer := fun _ ht => absurd ht List.not_mem_nil
      recorded := fun w e id he hid => by
        rw [entry_new o now he] at hid
        cases hid
      own := fun _ ht => absurd ht List.not_mem_nil
      probes := List.nodup_nil
      probe := fun _ hp => absurd hp List.not_mem_nil }
  good := by
    intro w v hv
    obtain ⟨e, he, rfl⟩ := exists_of_recovery hv
    rw [entry_new o now he]
    constructor <;> simp [Recovery.outstanding, timersOf, probesOf, WorkerPool.new]

theorem get?_probed_of_ne {w' : ℤ} (hw : w ≠ w') (now : ℤ) (alive : Bool) :
    (s.probed o w now alive).workers.get? w' = s.workers.get? w' := by
  unfold probed
  split
  · rfl
  · split_ifs
    · rfl
    · rw [get?_setWorker, if_neg hw]
    · exact get?_scheduleRecoveryProbe_of_ne s hw

theorem probed_of_up (hup : s.status w ≠ some .crashed) (now : ℤ) (alive : Bool) :
    s.probed o w now alive = s := by
  unfold probed
  split
  · rfl
  · rename_i e he
    rw [status_of_get? he] at hup
    rw [if_pos (by simpa using hup)]

/-- The answer of another worker's probe, or for a worker that is not crashed, leaves the
worker's entry. -/
theorem get?_onProbe {p : Probe} (hup : p.workerId = w → s.status w ≠ some .crashed) (now : ℤ)
    (alive : Bool) : (s.onProbe o p now alive).workers.get? w = s.workers.get? w := by
  unfold onProbe
  by_cases hw : p.workerId = w
  · have hstill : ({ s with probes := s.probes.filter fun q => q.id ≠ p.id } : WorkerPool).status
        p.workerId ≠ some .crashed := by
      rw [hw]
      exact hup hw
    rw [probed_of_up hstill]
  · rw [get?_probed_of_ne hw]

section Run

variable {now : ℤ} {as : List PoolAction}

/-- A worker that is not crashed stays so for as long as the probe is in flight. -/
theorem InOrder.harmless (h : InOrder o s)
    (hg : Machine.Guarded (poolStep o) (Undisturbed o) s as) : Harmless o s as := by
  intro pre mid id now alive hp t u u' w ht hu hlast hprobe hup
  obtain ⟨rest, rfl⟩ := hp
  rw [List.append_assoc, List.append_assoc] at hg
  have hat : InOrder o t := by
    refine (hg.restrict (List.prefix_append pre _)).invariant h ?_ ht
    exact fun _ _ _ hgood hok hs => hgood.step hok hs
  have hmid := (hg.after ht).restrict (List.prefix_append mid _)
  have hkept : InOrder o u ∧ id < u.nextProbe ∧
      (⟨id, w⟩ ∈ u.probes → u.status w ≠ some .crashed) := by
    refine hmid.invariant (P := fun u => InOrder o u ∧ id < u.nextProbe ∧
      (⟨id, w⟩ ∈ u.probes → u.status w ≠ some .crashed))
      ⟨hat, hat.numbered.probe _ hprobe, fun _ => hup⟩ ?_ hu
    rintro u a u' ⟨hgood, hlt, hstill⟩ hok hs
    have hturns := hgood.numbered.turns hs
    refine ⟨hgood.step hok hs, Nat.lt_of_lt_of_le hlt hturns.nextProbe, fun hin => ?_⟩
    have hold : (⟨id, w⟩ : Probe) ∈ u.probes := by
      rcases hturns.probe _ hin with hold | hnew
      · exact hold
      · exact absurd hnew (Nat.ne_of_lt hlt)
    intro hcrashed
    cases hv' : u'.recovery w with
    | none =>
        rw [status_of_none (Option.map_eq_none_iff.mp hv')] at hcrashed
        cases hcrashed
    | some v' =>
        obtain ⟨v, hv, hturn⟩ := hturns.before hv'
        have hbefore : v.crashed = false := by
          by_contra hc
          exact hstill hold ((crashed_iff hv).mp (by simpa using hc))
        have hafter := hturn.crashed (hok _ hold) hbefore
        rw [(crashed_iff hv').mpr hcrashed] at hafter
        cases hafter
  unfold poolStep at hlast
  split at hlast
  · cases hlast
  · obtain ⟨p, hfind, rfl⟩ := Option.map_eq_some_iff.mp hlast
    have hid : p.id = id := by simpa using List.find?_some hfind
    apply get?_onProbe
    rintro rfl
    apply hkept.2.2
    rw [← hid]
    exact List.mem_of_find?_eq_some hfind

/-- A run without a reset spends an attempt for each probe it starts. -/
theorem InOrder.spent_run (h : InOrder o s)
    (hg : Machine.Guarded (poolStep o) (Undisturbed o) s as)
    (hreset : Machine.Guarded (poolStep o) (fun s a => s.resets o a w = false) s as)
    (hv : s.recovery w = some v) (hrun : Machine.exec (poolStep o) s as = some s') :
    ∃ v', s'.recovery w = some v' ∧ v'.Good o.recoveryAttempts ∧
      v'.spent = v.spent + probesStarted o w s as := by
  induction as generalizing s v with
  | nil =>
      obtain rfl := Option.some.inj hrun
      exact ⟨v, hv, h.good w v hv, by simp [probesStarted]⟩
  | cons a as ih =>
      rw [Machine.exec_cons] at hrun
      obtain ⟨t, ht, hrun⟩ := Option.bind_eq_some_iff.mp hrun
      obtain ⟨hok, hrest⟩ := Machine.guarded_cons.mp hg
      obtain ⟨hno, hnorest⟩ := Machine.guarded_cons.mp hreset
      obtain ⟨u, hu, hturn⟩ := (h.numbered.turns ht).recovery w v hv
      obtain ⟨v', hv', hgood, hspent⟩ := ih (h.step hok ht) (hrest t ht) (hnorest t ht) hu hrun
      refine ⟨v', hv', hgood, ?_⟩
      rw [hspent, hturn.spent (h.good w v hv) hno, probesStarted, ht]
      push_cast
      omega

theorem InOrder.withinBudget (h : InOrder o s)
    (hg : Machine.Guarded (poolStep o) (Undisturbed o) s as)
    (hrun : Machine.exec (poolStep o) s as = some s') : WithinBudget o s as := by
  intro pre mid hp t w v ht hv hreset
  obtain ⟨u, hu⟩ := Machine.exec_prefix hp hrun
  rw [Machine.exec_append, ht, Option.bind_some] at hu
  obtain ⟨rest, rfl⟩ := hp
  rw [List.append_assoc] at hg
  have hat : InOrder o t := by
    refine (hg.restrict (List.prefix_append pre _)).invariant h ?_ ht
    exact fun _ _ _ hgood hok hs => hgood.step hok hs
  have hmid := (hg.after ht).restrict (List.prefix_append mid _)
  obtain ⟨v', hv', hgood, hspent⟩ := hat.spent_run hmid hreset hv hu
  have hpaid := (hat.good w v hv).paid
  have hbudget := hgood.budget
  unfold Recovery.spent at hspent
  omega

/-- A pool's workers are recovered one step at a time, within their budgets, exactly in the runs
in which no worker's recovery is started over while a probe of it is in flight. -/
theorem single_recovery_chain_iff
    (hrun : Machine.exec (poolStep o) (.new o now) as = some s) :
    (Machine.Always (poolStep o) SingleStep (.new o now) as ∧ Harmless o (.new o now) as ∧
      WithinBudget o (.new o now) as) ↔
      Machine.Guarded (poolStep o) (Undisturbed o) (.new o now) as := by
  have hnew := inOrder_new o now
  have hiff : Machine.Always (poolStep o) SingleStep (.new o now) as ↔
      Machine.Guarded (poolStep o) (Undisturbed o) (.new o now) as := by
    refine Machine.always_iff_guarded hnew (fun _ (h : InOrder o _) => h.single) ?_ ?_ hrun
    · exact fun _ _ _ h hok hs => h.step hok hs
    · exact fun _ _ _ h hbad hs => h.spoilt hbad hs
  constructor
  · exact fun hall => hiff.mp hall.1
  · intro hg
    exact ⟨hiff.mpr hg, hnew.harmless hg, hnew.withinBudget hg hrun⟩

end Run

/-- Worker 0 is reported dead; while its first probe is in flight, so is its restart. -/
def restartedWhileProbed : List PoolAction :=
  [.supervisor 0 (.workerCrashed 0 []), .recoveryTimer 0 ⟨2000, fun _ => true⟩,
    .supervisor 2001 (.workerRestarted 0)]

theorem single_recovery_chain_probed :
    ∃ s, Machine.exec (poolStep twoWorkers) (.new twoWorkers 0) (restartedWhileProbed.take 2) =
        some s ∧
      Machine.Always (poolStep twoWorkers) SingleStep (.new twoWorkers 0)
        (restartedWhileProbed.take 2) := by
  have hsome : (Machine.exec (poolStep twoWorkers) (.new twoWorkers 0)
      (restartedWhileProbed.take 2)).isSome := by decide
  obtain ⟨s, hs⟩ := Option.isSome_iff_exists.mp hsome
  exact ⟨s, hs, ((single_recovery_chain_iff hs).mpr (by decide)).1⟩

/-- The worker has a timer and a probe. -/
theorem not_single_recovery_chain :
    ∃ s, Machine.exec (poolStep twoWorkers) (.new twoWorkers 0) restartedWhileProbed = some s ∧
      ¬ SingleStep s := by
  have hrun : (Machine.exec (poolStep twoWorkers) (.new twoWorkers 0) restartedWhileProbed).map
      (fun s => s.recovery 0) = some (some ⟨true, some 1, 1, [1], 1⟩) := by
    decide
  obtain ⟨s, hs, hview⟩ := Option.map_eq_some_iff.mp hrun
  refine ⟨s, hs, fun hsingle => ?_⟩
  have htwo := (hsingle 0 _ hview).1
  simp [Recovery.outstanding] at htwo

end WorkerPool

end ServeInfer.ApiServer
