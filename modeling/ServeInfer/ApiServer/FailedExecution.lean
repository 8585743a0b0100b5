import ServeInfer.ApiServer.Idempotency

/-!
# A failed execution

A run in which an execution fails is held against the run in which its id was
not submitted. Up to the failure the two differ in the one entry of `inflight`,
and after it in nothing.
-/

namespace ServeInfer.ApiServer

variable {β : Type*}

/-- The action as it is when the execution has not been started: a submission of its id looks the
id up, or is not made at all. -/
def RegistryAction.without (look : Bool) (p : ℕ) (id : JsString) :
    RegistryAction β → Option (RegistryAction β)
  | .run q requestId mfeId stream now =>
      if requestId = id then if look then some (.lookup id now) else none
      else some (.run q requestId mfeId stream now)
  | .lookup requestId now => some (.lookup requestId now)
  | .snapshot now => some (.snapshot now)
  | .callExecute q => if q = p then none else some (.callExecute q)
  | .settleExecute q outcome => if q = p then none else some (.settleExecute q outcome)
  | .react q now => if q = p then none else some (.react q now)

namespace RegistryState

variable {s s' t t' : RegistryState β} {ttl now : ℤ} {id : JsString} {p : ℕ} {look : Bool}
  {x : Execution β}

/-- The results that have not expired. -/
def live (s : RegistryState β) (ttl now : ℤ) : List (JsString × CompletedEntry β) :=
  s.registry.completed.entries.filter fun e => now - ttl ≤ e.2.finishedAt

/-- `t` is `s` without the execution. -/
structure Twin (look : Bool) (ttl : ℤ) (p : ℕ) (id : JsString) (s t : RegistryState β) : Prop where
  mine : ∃ e, s.registry.inflight.get? id = some e ∧ e.promise = p
  inflight : t.registry.inflight = s.registry.inflight.delete id
  live : ∀ now, s.clock ≤ now → t.live ttl now = s.live ttl now
  same : look = true → t.registry.completed = s.registry.completed
  executions : ∀ q, t.executions.get? q = if q = p then none else s.executions.get? q
  clock : t.clock ≤ s.clock

theorem Sound.live_evicted (h : s.Sound ttl) {now later : ℤ} (hle : now ≤ later) :
    (s.evicted now).live ttl later = s.live ttl later := by
  unfold RegistryState.live RegistryState.evicted
  dsimp only
  rw [h.finishOrder.entries_evict, h.window, List.filter_filter]
  refine List.filter_congr fun e _ => ?_
  rw [Bool.eq_iff_iff]
  simp only [Bool.and_eq_true, decide_eq_true_eq]
  constructor
  · exact fun hboth => hboth.1
  · exact fun hlater => ⟨hlater, by omega⟩

/-- After an eviction nothing but the live results is left. -/
theorem Sound.completed_evicted (h : s.Sound ttl) (now : ℤ) :
    (s.evicted now).registry.completed.entries = s.live ttl now := by
  unfold RegistryState.live RegistryState.evicted
  dsimp only
  rw [h.finishOrder.entries_evict, h.window]

theorem Twin.completed_evicted (h : Twin look ttl p id s t) (hs : s.Sound ttl) (ht : t.Sound ttl)
    (hle : s.clock ≤ now) :
    (t.evicted now).registry.completed = (s.evicted now).registry.completed := by
  apply OrderedMap.ext
  rw [ht.completed_evicted, hs.completed_evicted, h.live now hle]

/-- Both look at the clock. -/
theorem Twin.evicted (h : Twin look ttl p id s t) (hs : s.Sound ttl) (ht : t.Sound ttl)
    (hle : s.clock ≤ now) : Twin look ttl p id (s.evicted now) (t.evicted now) :=
  { h with
    live := fun later hlater => by
      have hnow : now ≤ later := hlater
      rw [ht.live_evicted hnow, hs.live_evicted hnow, h.live later (hle.trans hnow)]
    same := fun _ => h.completed_evicted hs ht hle
    clock := le_refl now }

/-- Only the run with the execution looks at the clock. -/
theorem Twin.evicted_left (h : Twin false ttl p id s t) (hs : s.Sound ttl)
    (hle : s.clock ≤ now) : Twin false ttl p id (s.evicted now) t :=
  { h with
    live := fun later hlater => by
      have hnow : now ≤ later := hlater
      rw [hs.live_evicted hnow, h.live later (hle.trans hnow)]
    same := fun hlook => by cases hlook
    clock := h.clock.trans hle }

/-- An execution of another number goes on in both. -/
theorem Twin.setPhase (h : Twin look ttl p id s t) {q : ℕ} (hq : q ≠ p) (x : Execution β)
    (phase : ExecutionPhase β) :
    Twin look ttl p id (s.setPhase q x phase) (t.setPhase q x phase) :=
  { h with
    executions := fun k => by
      simp only [RegistryState.setPhase, OrderedMap.get?_set, h.executions]
      by_cases hk : q = k
      · subst hk
        simp [hq]
      · simp [hk] }

/-- The execution itself goes on in the one. -/
theorem Twin.setPhase_left (h : Twin look ttl p id s t) (x : Execution β)
    (phase : ExecutionPhase β) : Twin look ttl p id (s.setPhase p x phase) t :=
  { h with
    executions := fun k => by
      simp only [RegistryState.setPhase, OrderedMap.get?_set, h.executions]
      by_cases hk : p = k
      · subst hk
        simp
      · simp [hk] }

theorem Sound.started_ne (h : s.Sound ttl) {e : InflightEntry}
    (he : s.registry.inflight.get? id = some e) {q : ℕ} (hq : s.executions.get? q = none) :
    q ≠ e.promise := by
  rintro rfl
  obtain ⟨x, hx, -⟩ := h.entry he
  rw [hq] at hx
  cases hx

/-- Another id is submitted in both. -/
theorem Twin.onRun (h : Twin look ttl p id s t) (hs : s.Sound ttl) (ht : t.Sound ttl)
    (hle : s.clock ≤ now) {q : ℕ} {id' mfeId : JsString} {stream : Bool} (hid : id' ≠ id)
    (hq : s.executions.get? q = none) :
    Twin look ttl p id (s.onRun q id' mfeId stream now) (t.onRun q id' mfeId stream now) := by
  obtain ⟨e, he, hpe⟩ := h.mine
  have hqp : q ≠ p := hpe ▸ hs.started_ne he hq
  have hev := h.evicted hs ht hle
  have hinflight : t.registry.inflight.get? id' = s.registry.inflight.get? id' := by
    rw [h.inflight, OrderedMap.get?_delete, if_neg (Ne.symm hid)]
  have hcompleted := h.completed_evicted hs ht hle
  obtain ⟨-, hsold, hseq⟩ | ⟨-, hsc, hsi, hseq⟩ := s.onRun_cases q id' mfeId stream now
  all_goals obtain ⟨-, htold, hteq⟩ | ⟨-, htc, hti, hteq⟩ := t.onRun_cases q id' mfeId stream now
  · rw [hseq, hteq]
    exact hev
  · rw [hcompleted] at htc
    exact absurd ⟨htc, hinflight ▸ hti⟩ hsold
  · rw [← hcompleted] at hsc
    exact absurd ⟨hsc, hinflight.trans hsi⟩ htold
  · rw [hseq, hteq]
    refine ⟨⟨e, ?_, hpe⟩, ?_, ?_, ?_, ?_, le_refl now⟩
    · rw [RequestRegistry.inflight_persist, OrderedMap.get?_set, if_neg hid, he]
    · rw [RequestRegistry.inflight_persist, RequestRegistry.inflight_persist, h.inflight,
        OrderedMap.delete_set_of_ne _ _ hid (OrderedMap.get?_eq_none_iff.mp hsi)]
    · intro later hlater
      simp only [RegistryState.live, RequestRegistry.completed_persist]
      exact hev.live later hlater
    · intro _
      simp only [RequestRegistry.completed_persist]
      exact hcompleted
    · intro k
      simp only [OrderedMap.get?_set, h.executions]
      by_cases hk : q = k
      · subst hk
        simp [hqp]
      · simp [hk]

/-- Another execution answers in both. -/
theorem Twin.onAnswer (h : Twin look ttl p id s t) (hs : s.Sound ttl) (ht : t.Sound ttl)
    (hle : s.clock ≤ now) {q : ℕ} (hq : q ≠ p) (hx : s.executions.get? q = some x)
    (hopen : x.Open) (outcome : Option β) :
    Twin look ttl p id (s.onAnswer q x outcome now) (t.onAnswer q x outcome now) := by
  obtain ⟨e, he, hpe⟩ := h.mine
  have hxt : t.executions.get? q = some x := by rw [h.executions, if_neg hq, hx]
  obtain ⟨f, hf, hqf⟩ := hs.filed hx hopen
  obtain ⟨g, hg, -⟩ := ht.filed hxt hopen
  have hid : x.requestId ≠ id := by
    intro heq
    rw [heq, he] at hf
    rw [← Option.some.inj hf, hpe] at hqf
    exact hq hqf.symm
  have hphase := h.setPhase hq x (.settled outcome)
  have hdelete : (t.registry.inflight.delete x.requestId) =
      (s.registry.inflight.delete x.requestId).delete id := by
    rw [h.inflight, OrderedMap.delete_comm]
  have hmine : (s.registry.inflight.delete x.requestId).get? id = some e := by
    rw [OrderedMap.get?_delete, if_neg hid, he]
  cases outcome with
  | none =>
      simp only [RegistryState.onAnswer, RequestRegistry.forget]
      refine ⟨⟨e, ?_, hpe⟩, ?_, ?_, ?_, hphase.executions, le_refl now⟩
      · rw [RequestRegistry.inflight_persist, hmine]
      · rw [RequestRegistry.inflight_persist, RequestRegistry.inflight_persist, hdelete]
      · intro later hlater
        simp only [RegistryState.live, RequestRegistry.completed_persist]
        exact h.live later (hle.trans hlater)
      · intro hlook
        simp only [RequestRegistry.completed_persist, h.same hlook]
  | some result =>
      have hsnone := OrderedMap.get?_eq_none_iff.mp (hs.apart hf)
      have htnone := OrderedMap.get?_eq_none_iff.mp (ht.apart hg)
      simp only [RegistryState.onAnswer, RequestRegistry.settle]
      refine ⟨⟨e, ?_, hpe⟩, ?_, ?_, ?_, hphase.executions, le_refl now⟩
      · rw [RequestRegistry.inflight_persist, hmine]
      · rw [RequestRegistry.inflight_persist, RequestRegistry.inflight_persist, hdelete]
      · intro later hlater
        have hlive := h.live later (hle.trans hlater)
        simp only [RegistryState.live] at hlive
        simp only [RegistryState.live, RequestRegistry.completed_persist,
          OrderedMap.entries_set_of_notMem _ hsnone, OrderedMap.entries_set_of_notMem _ htnone,
          List.filter_append, hlive]
      · intro hlook
        simp only [RequestRegistry.completed_persist, h.same hlook]

theorem lookup_step (hle : s.clock ≤ now) (id : JsString) :
    registryStep s (.lookup id now) = some (s.evicted now) := by
  simp only [registryStep, if_pos hle, RequestRegistry.lookup_snd]
  rfl

theorem exec_single {a : RegistryAction β} (h : registryStep s a = some s') :
    Machine.exec registryStep s [a] = some s' := by
  rw [Machine.exec_cons, h, Option.bind_some, Machine.exec_nil]

/-- An execution goes on, in both runs where it is not the one that the other run does not have. -/
theorem Twin.goesOn (h : Twin look ttl p id s t) {a : RegistryAction β} {q : ℕ}
    (hwithout : a.without look p id = if q = p then none else some a) (x : Execution β)
    (phase : ExecutionPhase β)
    (hstep : q ≠ p → registryStep t a = some (t.setPhase q x phase)) :
    ∃ t', Machine.exec registryStep t (a.without look p id).toList = some t' ∧
      Twin look ttl p id (s.setPhase q x phase) t' := by
  rw [hwithout]
  by_cases hq : q = p
  · subst hq
    exact ⟨t, by simp, h.setPhase_left x phase⟩
  · refine ⟨t.setPhase q x phase, ?_, h.setPhase hq x phase⟩
    rw [if_neg hq]
    exact exec_single (hstep hq)

/-- A step other than the reaction to the execution: the run without it takes the step it has in
its place, if any. -/
theorem Twin.step (h : Twin look ttl p id s t) (hs : s.Sound ttl) (ht : t.Sound ttl)
    {a : RegistryAction β} (ha : ∀ now, a ≠ .react p now) (hstep : registryStep s a = some s') :
    ∃ t', Machine.exec registryStep t (a.without look p id).toList = some t' ∧
      Twin look ttl p id s' t' := by
  cases a with
  | run q id' mfeId stream now =>
      simp only [registryStep] at hstep
      split at hstep
      · rename_i hguard
        obtain ⟨hle, hq⟩ := hguard
        obtain rfl := Option.some.inj hstep
        by_cases hid : id' = id
        · subst hid
          obtain ⟨e, he, -⟩ := h.mine
          have hjoined : s.onRun q id' mfeId stream now = s.evicted now := by
            obtain ⟨-, -, heq⟩ | ⟨-, -, hnone, -⟩ := s.onRun_cases q id' mfeId stream now
            · exact heq
            · rw [he] at hnone
              cases hnone
          rw [hjoined]
          cases look with
          | true =>
              refine ⟨t.evicted now, ?_, h.evicted hs ht hle⟩
              simp only [RegistryAction.without, if_true, Option.toList_some]
              exact exec_single (lookup_step (h.clock.trans hle) id')
          | false =>
              refine ⟨t, ?_, h.evicted_left hs hle⟩
              simp [RegistryAction.without]
        · refine ⟨t.onRun q id' mfeId stream now, ?_, h.onRun hs ht hle hid hq⟩
          have hqt : t.executions.get? q = none := by
            rw [h.executions, hq]
            split <;> rfl
          simp only [RegistryAction.without, if_neg hid, Option.toList_some]
          exact exec_single (by simp [registryStep, h.clock.trans hle, hqt])
      · cases hstep
  | lookup id' now =>
      simp only [registryStep] at hstep
      split at hstep
      · rename_i hle
        obtain rfl := Option.some.inj hstep
        rw [RequestRegistry.lookup_snd]
        refine ⟨t.evicted now, ?_, h.evicted hs ht hle⟩
        exact exec_single (lookup_step (h.clock.trans hle) id')
      · cases hstep
  | snapshot now =>
      simp only [registryStep] at hstep
      split at hstep
      · rename_i hle
        obtain rfl := Option.some.inj hstep
        refine ⟨t.evicted now, ?_, h.evicted hs ht hle⟩
        exact exec_single (by simp only [registryStep, if_pos (h.clock.trans hle)]; rfl)
      · cases hstep
  | callExecute q =>
      simp only [registryStep] at hstep
      split at hstep
      · rename_i hx
        obtain rfl := Option.some.inj hstep
        refine h.goesOn rfl _ _ fun hq => ?_
        simp [registryStep, h.executions, hq, hx]
      · cases hstep
  | settleExecute q outcome =>
      simp only [registryStep] at hstep
      split at hstep
      · rename_i hx
        obtain rfl := Option.some.inj hstep
        refine h.goesOn rfl _ _ fun hq => ?_
        simp [registryStep, h.executions, hq, hx]
      · cases hstep
  | react q now =>
      have hq : q ≠ p := fun heq => ha now (heq ▸ rfl)
      simp only [registryStep] at hstep
      split at hstep
      · rename_i hle
        split at hstep
        · rename_i id' outcome hx
          obtain rfl := Option.some.inj hstep
          refine ⟨_, ?_, h.onAnswer hs ht hle hq hx (open_of_phase (by simp)) outcome⟩
          simp only [RegistryAction.without, if_neg hq, Option.toList_some]
          exact exec_single (by simp [registryStep, h.clock.trans hle, h.executions, hq, hx])
        · cases hstep
      · cases hstep

/-- A settled execution stays as it is. -/
theorem settled_step {a : RegistryAction β} (hx : s.executions.get? p = some x) (hdone : ¬ x.Open)
    (hstep : registryStep s a = some s') : s'.executions.get? p = some x := by
  have hother : ∀ {q : ℕ} {y : Execution β}, s.executions.get? q = some y → y.Open → q ≠ p := by
    rintro q y hy hopen rfl
    rw [hx] at hy
    exact hdone (Option.some.inj hy ▸ hopen)
  unfold registryStep at hstep
  split at hstep
  · split at hstep
    · rename_i hguard
      obtain rfl := Option.some.inj hstep
      simp only [RegistryState.onRun]
      split
      · rw [OrderedMap.get?_set, if_neg, hx]
        rintro rfl
        rw [hguard.2] at hx
        cases hx
      · exact hx
    · cases hstep
  · split at hstep
    · obtain rfl := Option.some.inj hstep
      exact hx
    · cases hstep
  · split at hstep
    · obtain rfl := Option.some.inj hstep
      exact hx
    · cases hstep
  · split at hstep
    · rename_i hy
      obtain rfl := Option.some.inj hstep
      simp only [RegistryState.setPhase, OrderedMap.get?_set]
      rw [if_neg (hother hy (open_of_phase (by simp))), hx]
    · cases hstep
  · split at hstep
    · rename_i hy
      obtain rfl := Option.some.inj hstep
      simp only [RegistryState.setPhase, OrderedMap.get?_set]
      rw [if_neg (hother hy (open_of_phase (by simp))), hx]
    · cases hstep
  · split at hstep
    · split at hstep
      · rename_i hy
        obtain rfl := Option.some.inj hstep
        simp only [RegistryState.onAnswer, RegistryState.setPhase, OrderedMap.get?_set]
        rw [if_neg (hother hy (open_of_phase (by simp))), hx]
      · cases hstep
    · cases hstep

theorem settled_exec {as : List (RegistryAction β)} (hx : s.executions.get? p = some x)
    (hdone : ¬ x.Open) (hrun : Machine.exec registryStep s as = some s') :
    s'.executions.get? p = some x := by
  refine Machine.exec_invariant (P := fun s : RegistryState β => s.executions.get? p = some x) hx ?_
    hrun
  exact fun _ _ _ hx hs => settled_step hx hdone hs

theorem react_eq {a : RegistryAction β} (ha : a = .react p now)
    (hs : registryStep s a = some s') :
    ∃ id outcome, s.executions.get? p = some ⟨id, .answered outcome⟩ ∧ s.clock ≤ now ∧
      s' = s.onAnswer p ⟨id, .answered outcome⟩ outcome now := by
  subst ha
  simp only [registryStep] at hs
  split at hs
  · rename_i hle
    split at hs
    · rename_i id outcome hx
      exact ⟨id, outcome, hx, hle, (Option.some.inj hs).symm⟩
    · cases hs
  · cases hs

theorem executions_onAnswer (s : RegistryState β) (p : ℕ) (id : JsString) (outcome : Option β)
    (now : ℤ) : (s.onAnswer p ⟨id, .answered outcome⟩ outcome now).executions.get? p =
      some ⟨id, .settled outcome⟩ := by
  simp [onAnswer, setPhase]

theorem without_cons (look : Bool) (p : ℕ) (id : JsString) (a : RegistryAction β)
    (as : List (RegistryAction β)) :
    (a :: as).filterMap (RegistryAction.without look p id) =
      (a.without look p id).toList ++ as.filterMap (RegistryAction.without look p id) := by
  rw [List.filterMap_cons]
  cases a.without look p id <;> rfl

/-- Up to the answer of the execution, the run without it goes along. -/
theorem Twin.exec (h : Twin look ttl p id s t) (hs : s.Sound ttl) (ht : t.Sound ttl)
    {as : List (RegistryAction β)} (hrun : Machine.exec registryStep s as = some s')
    (hopen : ∀ x, s'.executions.get? p = some x → x.Open) :
    ∃ t', Machine.exec registryStep t (as.filterMap (RegistryAction.without look p id)) = some t' ∧
      Twin look ttl p id s' t' := by
  induction as generalizing s t with
  | nil =>
      obtain rfl := Option.some.inj hrun
      exact ⟨t, rfl, h⟩
  | cons a as ih =>
      rw [Machine.exec_cons] at hrun
      obtain ⟨s₁, hstep, hrest⟩ := Option.bind_eq_some_iff.mp hrun
      have ha : ∀ now, a ≠ .react p now := by
        intro now heq
        obtain ⟨id', outcome, -, -, rfl⟩ := react_eq heq hstep
        have hsettled := settled_exec (executions_onAnswer s p id' outcome now)
          (fun hx => hx outcome rfl) hrest
        exact hopen _ hsettled outcome rfl
      obtain ⟨t₁, hstep', h₁⟩ := h.step hs ht ha hstep
      have ht₁ : t₁.Sound ttl := Machine.exec_invariant ht (fun _ _ _ h hs => h.step hs) hstep'
      obtain ⟨t', hrest', h'⟩ := ih h₁ (hs.step hstep) ht₁ hrest
      refine ⟨t', ?_, h'⟩
      rw [without_cons, Machine.exec_append, hstep', Option.bind_some, hrest']

/-- Where an execution starts, the run without it has at most looked at the clock. -/
theorem Sound.twin (h : s.Sound ttl) (look : Bool) {mfeId : JsString} {stream : Bool}
    (hle : s.clock ≤ now) (hp : s.executions.get? p = none)
    (hnew : (s.registry.run p id mfeId stream now).1.state = .new) :
    ∃ t, Machine.exec registryStep s
        ((RegistryAction.run p id mfeId stream now).without look p id).toList = some t ∧
      t.Sound ttl ∧ Twin look ttl p id (s.onRun p id mfeId stream now) t := by
  have hev := h.evicted hle
  obtain ⟨hold, -⟩ | ⟨-, -, hi, heq⟩ := s.onRun_cases p id mfeId stream now
  · exact absurd hnew hold
  have hmine : (s.registry.inflight.set id ⟨mfeId, stream, now, p⟩).delete id =
      s.registry.inflight := OrderedMap.delete_set_self _ _ (OrderedMap.get?_eq_none_iff.mp hi)
  have hexecutions : ∀ q, s.executions.get? q =
      if q = p then none else (s.executions.set p { requestId := id }).get? q := by
    intro q
    rw [OrderedMap.get?_set]
    by_cases hq : q = p
    · rw [if_pos hq, hq, hp]
    · rw [if_neg hq, if_neg (Ne.symm hq)]
  rw [heq]
  cases look with
  | true =>
      refine ⟨s.evicted now, ?_, hev, ⟨⟨⟨mfeId, stream, now, p⟩, ?_, rfl⟩, ?_, ?_, ?_,
        hexecutions, le_refl now⟩⟩
      · simp only [RegistryAction.without, if_true, Option.toList_some]
        exact exec_single (lookup_step hle id)
      · rw [RequestRegistry.inflight_persist, OrderedMap.get?_set_self]
      · rw [RequestRegistry.inflight_persist, hmine]
        rfl
      · intro later _
        simp only [RegistryState.live, RequestRegistry.completed_persist]
      · intro _
        simp only [RequestRegistry.completed_persist]
  | false =>
      refine ⟨s, ?_, h, ⟨⟨⟨mfeId, stream, now, p⟩, ?_, rfl⟩, ?_, ?_,
        fun hlook => ?_, hexecutions, hle⟩⟩
      · simp [RegistryAction.without]
      · rw [RequestRegistry.inflight_persist, OrderedMap.get?_set_self]
      · rw [RequestRegistry.inflight_persist, hmine]
      · intro later hlater
        simp only [RegistryState.live, RequestRegistry.completed_persist]
        exact (h.live_evicted hlater).symm
      · cases hlook

/-- A failed execution leaves the maps as they are without it: exactly so where its submissions
have been lookups, and up to what has expired where they have not been made. -/
theorem Sound.unsubmitted (h : s.Sound ttl) {mfeId : JsString} {stream : Bool} {now later : ℤ}
    {as : List (RegistryAction β)}
    (hnew : (s.registry.run p id mfeId stream now).1.state = .new)
    (hrun : Machine.exec registryStep s (.run p id mfeId stream now :: (as ++ [.react p later])) =
      some s')
    (hfailed : s'.executions.get? p = some ⟨id, .settled none⟩) (look : Bool) :
    ∃ t, Machine.exec registryStep s
        ((.run p id mfeId stream now :: as).filterMap (RegistryAction.without look p id)) = some t ∧
      t.registry.inflight = s'.registry.inflight ∧
      (look = true → t.registry.completed = s'.registry.completed) ∧
      ∀ now, s'.clock ≤ now → (t.registry.evictCompleted now).completed =
        (s'.registry.evictCompleted now).completed := by
  rw [Machine.exec_cons] at hrun
  obtain ⟨s₁, hstart, hrest⟩ := Option.bind_eq_some_iff.mp hrun
  rw [Machine.exec_snoc] at hrest
  obtain ⟨s₂, hmid, hlast⟩ := Option.bind_eq_some_iff.mp hrest
  have hs₁ : s₁.Sound ttl := h.step hstart
  have hs₂ : s₂.Sound ttl := Machine.exec_invariant hs₁ (fun _ _ _ h hs => h.step hs) hmid
  simp only [registryStep] at hstart
  split at hstart
  · rename_i hguard
    obtain rfl := Option.some.inj hstart
    obtain ⟨id', outcome, hx, hle, rfl⟩ := react_eq rfl hlast
    rw [executions_onAnswer, Option.some.injEq, Execution.mk.injEq,
      ExecutionPhase.settled.injEq] at hfailed
    obtain ⟨rfl, rfl⟩ := hfailed
    obtain ⟨t₁, hstep, ht₁, htwin⟩ := h.twin look hguard.1 hguard.2 hnew
    obtain ⟨t, hexec, ht⟩ := htwin.exec hs₁ ht₁ hmid fun x hx' => by
      rw [hx] at hx'
      exact Option.some.inj hx' ▸ open_of_phase (by simp)
    have hts : t.Sound ttl := Machine.exec_invariant ht₁ (fun _ _ _ h hs => h.step hs) hexec
    have hs' := hs₂.step hlast
    have hcompleted : (s₂.onAnswer p ⟨id', .answered none⟩ none later).registry.completed =
        s₂.registry.completed := by
      simp only [RegistryState.onAnswer, RequestRegistry.forget, RequestRegistry.completed_persist]
    refine ⟨t, ?_, ?_, ?_, ?_⟩
    · rw [without_cons, Machine.exec_append, hstep, Option.bind_some, hexec]
    · simp only [RegistryState.onAnswer, RequestRegistry.forget, RequestRegistry.inflight_persist]
      exact ht.inflight
    · intro hlook
      rw [hcompleted, ht.same hlook]
    · intro now hnow
      apply OrderedMap.ext
      refine (hts.completed_evicted now).trans (Eq.trans ?_ (hs'.completed_evicted now).symm)
      rw [ht.live now (hle.trans hnow)]
      unfold RegistryState.live
      rw [hcompleted]
  · cases hstart

/-- One id has one execution at a time, which all that submit it meanwhile join; its result is
replayed while the window lasts and it is executed afresh afterwards; and a failed execution
leaves the maps as if it had not been submitted. -/
theorem idempotent_execution {file : Option JsString} {now₀ : ℤ} {as : List (RegistryAction β)}
    (hrun : Machine.exec registryStep (init ttl file now₀) as = some s) :
    (∀ id p q, s.Outstanding id p → s.Outstanding id q → p = q) ∧
    (∀ id p, s.Outstanding id p → ∀ q mfeId stream now, s.clock ≤ now →
      (s.registry.run q id mfeId stream now).1 = ⟨true, .inflight, .execution p⟩ ∧
        (s.registry.lookup id now).1 = { state := .inflight }) ∧
    (∀ id t, s.lastSuccess id = some t → ∀ q mfeId stream now, s.clock ≤ now →
      (now ≤ t.finishedAt + ttl →
        (s.registry.run q id mfeId stream now).1 = ⟨true, .completed, .resolved t.result⟩ ∧
          (s.registry.lookup id now).1 = ⟨.completed, some t.result⟩) ∧
      (t.finishedAt + ttl < now → (∀ p, ¬ s.Outstanding id p) →
        (s.registry.run q id mfeId stream now).1 = ⟨false, .new, .execution q⟩ ∧
          (s.registry.lookup id now).1 = { state := .new })) ∧
    (∀ id, s.lastSuccess id = none → (∀ p, ¬ s.Outstanding id p) →
      ∀ q mfeId stream now, s.clock ≤ now →
        (s.registry.run q id mfeId stream now).1 = ⟨false, .new, .execution q⟩ ∧
          (s.registry.lookup id now).1 = { state := .new }) ∧
    (∀ id p mfeId stream now later bs s',
      (s.registry.run p id mfeId stream now).1.state = .new →
      Machine.exec registryStep s (.run p id mfeId stream now :: (bs ++ [.react p later])) = some s' →
      s'.executions.get? p = some ⟨id, .settled none⟩ →
      ∀ look, ∃ t, Machine.exec registryStep s
          ((.run p id mfeId stream now :: bs).filterMap (RegistryAction.without look p id)) = some t ∧
        t.registry.inflight = s'.registry.inflight ∧
        (look = true → t.registry.completed = s'.registry.completed) ∧
        ∀ now, s'.clock ≤ now → (t.registry.evictCompleted now).completed =
          (s'.registry.evictCompleted now).completed) := by
  have h := sound_of_exec hrun
  refine ⟨?_, ?_, ?_, ?_, ?_⟩
  · intro id p q hp hq
    exact h.outstanding_unique hp hq
  · intro id p hp q mfeId stream now hle
    exact h.joins q mfeId stream hp hle
  · intro id t ht q mfeId stream now hle
    refine ⟨h.replays q mfeId stream ht hle, fun hlate hnone => ?_⟩
    refine h.executes q mfeId stream hnone hle fun t' ht' => ?_
    rwa [← Option.some.inj (ht.symm.trans ht')]
  · intro id ht hnone q mfeId stream now hle
    refine h.executes q mfeId stream hnone hle fun t' ht' => ?_
    rw [ht] at ht'
    cases ht'
  · intro id p mfeId stream now later bs s' hnew hexec hfailed look
    exact h.unsubmitted hnew hexec hfailed look

/-- One submission that succeeds, one that joins it, and another id that fails. -/
def twoIds : List (RegistryAction ℕ) :=
  [.run 0 (Json.units "a") [] false 1, .callExecute 0, .run 1 (Json.units "a") [] false 2,
    .run 1 (Json.units "b") [] true 3, .callExecute 1, .settleExecute 0 (some 7), .react 0 5,
    .settleExecute 1 none, .react 1 6]

theorem idempotent_execution_twoIds :
    ∃ s : RegistryState ℕ, Machine.exec registryStep (init 20 none 0) twoIds = some s ∧
      (s.registry.run 2 (Json.units "a") [] false 25).1 = ⟨true, .completed, .resolved 7⟩ ∧
      (s.registry.run 2 (Json.units "b") [] false 25).1 = ⟨false, .new, .execution 2⟩ := by
  have hrun : (Machine.exec registryStep (init 20 none 0) twoIds : Option (RegistryState ℕ)).any
      (fun s => s.clock = 6 ∧ s.lastSuccess (Json.units "a") = some ⟨Json.units "a", 5, 7⟩ ∧
        s.lastSuccess (Json.units "b") = none ∧
        s.executions.entries.map (fun e => e.2.phase) = [.settled (some 7), .settled none]) =
      true := by
    decide
  obtain ⟨s, hs, hstate⟩ := (Option.any_eq_true _ _).mp hrun
  obtain ⟨hclock, ha, hb, hexecutions⟩ := of_decide_eq_true hstate
  obtain ⟨-, -, hsuccess, hfresh, -⟩ := idempotent_execution hs
  have hnone : ∀ p, ¬ s.Outstanding (Json.units "b") p := by
    rintro p ⟨x, hx, -, hopen⟩
    have hmem := List.mem_map_of_mem (f := fun e : ℕ × Execution ℕ => e.2.phase)
      (OrderedMap.get?_eq_some_iff.mp hx)
    rw [hexecutions, List.mem_cons, List.mem_singleton] at hmem
    obtain hphase | hphase := hmem
    · exact hopen _ hphase
    · exact hopen _ hphase
  refine ⟨s, hs, ?_, ?_⟩
  · exact ((hsuccess _ _ ha 2 [] false 25 (by omega)).1 (by simp)).1
  · exact (hfresh _ hb hnone 2 [] false 25 (by omega)).1

end RegistryState

end ServeInfer.ApiServer
