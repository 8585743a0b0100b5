import ServeInfer.ApiServer.RequestRegistry

/-!
# Idempotent execution

The completed results stand in the order in which they finished, so that
eviction, which stops at the first one still inside the window, drops all that
have expired. From this, one id has one execution at a time, and its result is
replayed for exactly the window.
-/

namespace ServeInfer.ApiServer

/-- The execution's promise is not settled. -/
def Execution.Open {β : Type*} (x : Execution β) : Prop := ∀ outcome, x.phase ≠ .settled outcome

namespace RequestRegistry

variable {β : Type*} {s : RequestRegistry β}

@[simp] theorem inflight_persist (s : RequestRegistry β) : s.persist.inflight = s.inflight := by
  unfold persist
  split <;> rfl

@[simp] theorem completed_persist (s : RequestRegistry β) : s.persist.completed = s.completed := by
  unfold persist
  split <;> rfl

@[simp] theorem ttl_persist (s : RequestRegistry β) :
    s.persist.idempotencyTtlMs = s.idempotencyTtlMs := by
  unfold persist
  split <;> rfl

/-- The order that eviction relies on. -/
def InFinishOrder (s : RequestRegistry β) : Prop :=
  s.completed.entries.Pairwise fun a b => a.2.finishedAt ≤ b.2.finishedAt

theorem InFinishOrder.expired_first (h : s.InFinishOrder) (now : ℤ) :
    s.completed.entries.Pairwise fun a b =>
      (!(now - s.idempotencyTtlMs ≤ b.2.finishedAt : Bool)) = true →
        (!(now - s.idempotencyTtlMs ≤ a.2.finishedAt : Bool)) = true := by
  refine List.Pairwise.imp (fun {a b} hab hb => ?_) h
  simp only [Bool.not_eq_true', decide_eq_false_iff_not] at hb ⊢
  omega

/-- Eviction drops what has expired and nothing else. -/
theorem InFinishOrder.entries_evict (h : s.InFinishOrder) (now : ℤ) :
    (s.evictCompleted now).completed.entries =
      s.completed.entries.filter fun e => now - s.idempotencyTtlMs ≤ e.2.finishedAt := by
  refine (OrderedMap.entries_dropWhile (h.expired_first now)).trans ?_
  simp only [Bool.not_not]

theorem InFinishOrder.get?_evict (h : s.InFinishOrder) (now : ℤ) (id : JsString) :
    (s.evictCompleted now).completed.get? id =
      (s.completed.get? id).filter fun c => now - s.idempotencyTtlMs ≤ c.finishedAt := by
  refine (OrderedMap.get?_dropWhile (h.expired_first now) id).trans ?_
  simp only [Bool.not_not]

theorem InFinishOrder.evict (h : s.InFinishOrder) (now : ℤ) :
    (s.evictCompleted now).InFinishOrder := by
  unfold InFinishOrder
  rw [h.entries_evict]
  exact h.filter _

/-- What is left after eviction has not expired. -/
theorem InFinishOrder.evict_eq_some (h : s.InFinishOrder) {now : ℤ} {id : JsString}
    {c : CompletedEntry β} :
    (s.evictCompleted now).completed.get? id = some c ↔
      s.completed.get? id = some c ∧ now ≤ c.finishedAt + s.idempotencyTtlMs := by
  rw [h.get?_evict, Option.filter_eq_some_iff, decide_eq_true_eq]
  constructor
  · rintro ⟨hc, hnow⟩
    exact ⟨hc, by omega⟩
  · rintro ⟨hc, hnow⟩
    exact ⟨hc, by omega⟩

theorem lookup_snd (s : RequestRegistry β) (id : JsString) (now : ℤ) :
    (s.lookup id now).2 = s.evictCompleted now := by
  unfold lookup
  dsimp only
  split
  · rfl
  · split <;> rfl

/-- The three answers to an id. -/
theorem run_cases (s : RequestRegistry β) (p : ℕ) (id mfeId : JsString) (stream : Bool) (now : ℤ) :
    (∃ c, (s.evictCompleted now).completed.get? id = some c ∧
      s.run p id mfeId stream now =
        (⟨true, .completed, .resolved c.result⟩, s.evictCompleted now)) ∨
    ((s.evictCompleted now).completed.get? id = none ∧ ∃ e, s.inflight.get? id = some e ∧
      s.run p id mfeId stream now =
        (⟨true, .inflight, .execution e.promise⟩, s.evictCompleted now)) ∨
    ((s.evictCompleted now).completed.get? id = none ∧ s.inflight.get? id = none ∧
      s.run p id mfeId stream now = (⟨false, .new, .execution p⟩,
        { s.evictCompleted now with
          inflight := s.inflight.set id ⟨mfeId, stream, now, p⟩ }.persist)) := by
  have hinflight : (s.evictCompleted now).inflight = s.inflight := rfl
  simp only [run, hinflight]
  cases hc : (s.evictCompleted now).completed.get? id with
  | some c => exact .inl ⟨c, rfl, rfl⟩
  | none =>
      cases hi : s.inflight.get? id with
      | some e => exact .inr (.inl ⟨rfl, e, rfl, rfl⟩)
      | none => exact .inr (.inr ⟨rfl, rfl, rfl⟩)

end RequestRegistry

namespace RegistryState

variable {β : Type*} {s s' : RegistryState β} {ttl now : ℤ} {id : JsString} {p : ℕ}
  {x : Execution β}

/-- The last time the id succeeded. -/
def lastSuccess (s : RegistryState β) (id : JsString) : Option (Success β) :=
  s.successes.find? fun t => t.requestId = id

/-- How the maps, the executions and the past belong together. -/
structure Sound (ttl : ℤ) (s : RegistryState β) : Prop where
  window : s.registry.idempotencyTtlMs = ttl
  finishOrder : s.registry.InFinishOrder
  past : ∀ {id c}, s.registry.completed.get? id = some c → c.finishedAt ≤ s.clock
  entry : ∀ {id e}, s.registry.inflight.get? id = some e →
    ∃ x, s.executions.get? e.promise = some x ∧ x.requestId = id ∧ x.Open
  filed : ∀ {p x}, s.executions.get? p = some x → x.Open →
    ∃ e, s.registry.inflight.get? x.requestId = some e ∧ e.promise = p
  apart : ∀ {id e}, s.registry.inflight.get? id = some e → s.registry.completed.get? id = none
  cached : ∀ {id c}, s.registry.completed.get? id = some c →
    s.lastSuccess id = some ⟨id, c.finishedAt, c.result⟩
  expired : ∀ {id t}, s.lastSuccess id = some t → s.registry.completed.get? id = none →
    t.finishedAt + ttl < s.clock

theorem sound_init (ttl : ℤ) (file : Option JsString) (now : ℤ) :
    (init ttl file now : RegistryState β).Sound ttl where
  window := by simp [init, RequestRegistry.new]
  finishOrder := by simp [init, RequestRegistry.new, RequestRegistry.InFinishOrder]
  past := fun h => by simp [init, RequestRegistry.new] at h
  entry := fun h => by simp [init, RequestRegistry.new] at h
  filed := fun h => by simp [init] at h
  apart := fun h => by simp [init, RequestRegistry.new] at h
  cached := fun h => by simp [init, RequestRegistry.new] at h
  expired := fun h => by simp [init, lastSuccess] at h

/-- Time goes on, and what has expired is evicted. -/
def evicted (s : RegistryState β) (now : ℤ) : RegistryState β :=
  { s with registry := s.registry.evictCompleted now, clock := now }

theorem Sound.evicted (h : s.Sound ttl) (hle : s.clock ≤ now) : (s.evicted now).Sound ttl where
  window := h.window
  finishOrder := h.finishOrder.evict now
  past := fun hc => (h.past (h.finishOrder.evict_eq_some.mp hc).1).trans hle
  entry := h.entry
  filed := h.filed
  apart := fun {id e} he => by
    show (s.registry.evictCompleted now).completed.get? id = none
    rw [h.finishOrder.get?_evict, h.apart he]
    rfl
  cached := fun hc => h.cached (h.finishOrder.evict_eq_some.mp hc).1
  expired := fun {id t} ht hnone => by
    have hnone' : (s.registry.evictCompleted now).completed.get? id = none := hnone
    have ht' : s.lastSuccess id = some t := ht
    show t.finishedAt + ttl < now
    cases hc : s.registry.completed.get? id with
    | none => exact (h.expired ht' hc).trans_le hle
    | some c =>
        obtain rfl := Option.some.inj ((h.cached hc).symm.trans ht')
        by_contra hlate
        have hkept : (s.registry.evictCompleted now).completed.get? id = some c :=
          h.finishOrder.evict_eq_some.mpr ⟨hc, by rw [h.window]; exact not_lt.mp hlate⟩
        rw [hnone'] at hkept
        cases hkept

/-- A new execution is filed under its id. -/
theorem Sound.start (h : s.Sound ttl) {mfeId : JsString} {stream : Bool}
    (hp : s.executions.get? p = none) (hi : s.registry.inflight.get? id = none)
    (hc : s.registry.completed.get? id = none) :
    Sound ttl { s with
      registry := { s.registry with
        inflight := s.registry.inflight.set id ⟨mfeId, stream, now, p⟩ }.persist
      executions := s.executions.set p { requestId := id } } where
  window := by simpa using h.window
  finishOrder := by simpa [RequestRegistry.InFinishOrder] using h.finishOrder
  past := fun {id' c} hc => by
    simp only [RequestRegistry.completed_persist] at hc
    exact h.past hc
  entry := fun {id' e} he => by
    simp only [RequestRegistry.inflight_persist, OrderedMap.get?_set] at he ⊢
    split at he
    · rename_i heq
      obtain rfl := Option.some.inj he
      exact ⟨_, if_pos rfl, heq, fun _ => by simp⟩
    · obtain ⟨x, hx, hrest⟩ := h.entry he
      have hne : p ≠ e.promise := by
        rintro rfl
        rw [hp] at hx
        cases hx
      exact ⟨x, by rw [if_neg hne, hx], hrest⟩
  filed := fun {q x} hx hopen => by
    simp only [RequestRegistry.inflight_persist, OrderedMap.get?_set] at hx ⊢
    split at hx
    · rename_i heq
      obtain rfl := Option.some.inj hx
      exact ⟨_, if_pos rfl, heq⟩
    · obtain ⟨e, he, hq⟩ := h.filed hx hopen
      have hne : id ≠ x.requestId := by
        rintro rfl
        rw [hi] at he
        cases he
      exact ⟨e, by rw [if_neg hne, he], hq⟩
  apart := fun {id' e} he => by
    simp only [RequestRegistry.inflight_persist, RequestRegistry.completed_persist,
      OrderedMap.get?_set] at he ⊢
    split at he
    · rename_i heq
      exact heq ▸ hc
    · exact h.apart he
  cached := fun {id' c} hc => by
    simp only [RequestRegistry.completed_persist] at hc
    exact h.cached hc
  expired := fun {id' t} ht hnone => by
    simp only [RequestRegistry.completed_persist] at hnone
    exact h.expired ht hnone

/-- An execution goes on and is open still. -/
theorem Sound.setPhase (h : s.Sound ttl) {phase : ExecutionPhase β}
    (hx : s.executions.get? p = some x) (hopen : x.Open)
    (hphase : ∀ outcome, phase ≠ .settled outcome) : (s.setPhase p x phase).Sound ttl :=
  { h with
    entry := fun {id e} he => by
      obtain ⟨y, hy, hid, hyopen⟩ := h.entry he
      simp only [RegistryState.setPhase, OrderedMap.get?_set]
      split
      · rename_i heq
        subst heq
        obtain rfl := Option.some.inj (hx.symm.trans hy)
        exact ⟨_, rfl, hid, hphase⟩
      · exact ⟨y, hy, hid, hyopen⟩
    filed := fun {q y} hy hyopen => by
      simp only [RegistryState.setPhase, OrderedMap.get?_set] at hy
      split at hy
      · rename_i heq
        subst heq
        obtain rfl := Option.some.inj hy
        exact h.filed (x := x) hx hopen
      · exact h.filed hy hyopen }

/-- What is in flight still after an answer was before, and has another id. -/
theorem inflight_answer {id' : JsString} {e : InflightEntry}
    (he : (s.registry.inflight.delete id).get? id' = some e) :
    id ≠ id' ∧ s.registry.inflight.get? id' = some e := by
  rw [OrderedMap.get?_delete] at he
  split at he
  · cases he
  · rename_i hne
    exact ⟨hne, he⟩

theorem Sound.entry_answer {outcome : Option β} (h : s.Sound ttl)
    (hx : s.executions.get? p = some x) {id : JsString} {e : InflightEntry}
    (he : (s.registry.inflight.delete x.requestId).get? id = some e) :
    ∃ y, (s.setPhase p x (.settled outcome)).executions.get? e.promise = some y ∧
      y.requestId = id ∧ y.Open := by
  obtain ⟨hne, he⟩ := inflight_answer he
  obtain ⟨y, hy, hid, hyopen⟩ := h.entry he
  refine ⟨y, ?_, hid, hyopen⟩
  simp only [RegistryState.setPhase, OrderedMap.get?_set]
  split
  · rename_i heq
    subst heq
    obtain rfl := Option.some.inj (hx.symm.trans hy)
    exact absurd hid hne
  · exact hy

section Answer

variable {outcome : Option β} (h : s.Sound ttl) (hx : s.executions.get? p = some x) (hopen : x.Open)

include h hx hopen

theorem Sound.filed_answer {q : ℕ} {y : Execution β}
    (hy : (s.setPhase p x (.settled outcome)).executions.get? q = some y) (hyopen : y.Open) :
    ∃ e, (s.registry.inflight.delete x.requestId).get? y.requestId = some e ∧ e.promise = q := by
  simp only [RegistryState.setPhase, OrderedMap.get?_set] at hy
  split at hy
  · obtain rfl := Option.some.inj hy
    exact absurd rfl (hyopen outcome)
  · rename_i hne
    obtain ⟨e, he, rfl⟩ := h.filed hy hyopen
    obtain ⟨e', he', rfl⟩ := h.filed hx hopen
    refine ⟨e, ?_, rfl⟩
    rw [OrderedMap.get?_delete, if_neg, he]
    intro heq
    rw [heq, he] at he'
    exact hne (congrArg InflightEntry.promise (Option.some.inj he')).symm

/-- A failed execution leaves nothing behind. -/
theorem Sound.failed (hle : s.clock ≤ now) : (s.onAnswer p x none now).Sound ttl where
  window := by simpa [onAnswer, RequestRegistry.forget] using h.window
  finishOrder := by
    simpa [onAnswer, RequestRegistry.forget, RequestRegistry.InFinishOrder] using h.finishOrder
  past := fun {id c} hc => by
    simp only [onAnswer, RequestRegistry.forget, RequestRegistry.completed_persist] at hc ⊢
    exact (h.past hc).trans hle
  entry := fun {id e} he => by
    simp only [onAnswer, RequestRegistry.forget, RequestRegistry.inflight_persist] at he ⊢
    exact h.entry_answer hx he
  filed := fun {q y} hy hyopen => by
    simp only [onAnswer, RequestRegistry.forget, RequestRegistry.inflight_persist] at hy ⊢
    exact h.filed_answer hx hopen hy hyopen
  apart := fun {id e} he => by
    simp only [onAnswer, RequestRegistry.forget, RequestRegistry.inflight_persist,
      RequestRegistry.completed_persist] at he ⊢
    exact h.apart (inflight_answer he).2
  cached := fun {id c} hc => by
    simp only [onAnswer, RequestRegistry.forget, RequestRegistry.completed_persist] at hc
    exact h.cached hc
  expired := fun {id t} ht hnone => by
    simp only [onAnswer, RequestRegistry.forget, RequestRegistry.completed_persist] at hnone ⊢
    exact (h.expired ht hnone).trans_le hle

/-- A success is cached as the last one. -/
theorem Sound.succeeded (hle : s.clock ≤ now) (result : β) :
    (s.onAnswer p x (some result) now).Sound ttl := by
  obtain ⟨e, he, -⟩ := h.filed hx hopen
  have hnone : s.registry.completed.get? x.requestId = none := h.apart he
  have hlast : ∀ id, x.requestId ≠ id →
      (s.onAnswer p x (some result) now).lastSuccess id = s.lastSuccess id := by
    intro id hne
    simp [lastSuccess, onAnswer, hne]
  constructor
  · simpa [onAnswer, RequestRegistry.settle] using h.window
  · simp only [onAnswer, RequestRegistry.settle, RequestRegistry.InFinishOrder,
      RequestRegistry.completed_persist]
    rw [OrderedMap.entries_set_of_notMem _ (OrderedMap.get?_eq_none_iff.mp hnone)]
    refine List.pairwise_append.mpr ⟨h.finishOrder, List.pairwise_singleton _ _, ?_⟩
    intro a ha b hb
    obtain rfl := List.mem_singleton.mp hb
    exact (h.past (OrderedMap.get?_eq_some_iff.mpr ha)).trans hle
  · intro id c hc
    simp only [onAnswer, RequestRegistry.settle, RequestRegistry.completed_persist,
      OrderedMap.get?_set] at hc ⊢
    split at hc
    · rw [← Option.some.inj hc]
    · exact (h.past hc).trans hle
  · intro id e he
    simp only [onAnswer, RequestRegistry.settle, RequestRegistry.inflight_persist] at he ⊢
    exact h.entry_answer hx he
  · intro q y hy hyopen
    simp only [onAnswer, RequestRegistry.settle, RequestRegistry.inflight_persist] at hy ⊢
    exact h.filed_answer hx hopen hy hyopen
  · intro id e he
    simp only [onAnswer, RequestRegistry.settle, RequestRegistry.inflight_persist,
      RequestRegistry.completed_persist] at he ⊢
    obtain ⟨hne, he⟩ := inflight_answer he
    rw [OrderedMap.get?_set, if_neg hne, h.apart he]
  · intro id c hc
    simp only [onAnswer, RequestRegistry.settle, RequestRegistry.completed_persist,
      OrderedMap.get?_set] at hc
    split at hc
    · rename_i heq
      obtain rfl := Option.some.inj hc
      simp [lastSuccess, onAnswer, heq]
    · rename_i hne
      rw [hlast id hne]
      exact h.cached hc
  · intro id t ht hnone'
    simp only [onAnswer, RequestRegistry.settle, RequestRegistry.completed_persist,
      OrderedMap.get?_set] at hnone' ⊢
    split at hnone'
    · cases hnone'
    · rename_i hne
      rw [hlast id hne] at ht
      exact (h.expired ht hnone').trans_le hle

end Answer

/-- What a call of `run` does to the state. -/
theorem onRun_cases (s : RegistryState β) (p : ℕ) (id mfeId : JsString) (stream : Bool) (now : ℤ) :
    (s.registry.run p id mfeId stream now).1.state ≠ .new ∧
        ¬ ((s.evicted now).registry.completed.get? id = none ∧
          s.registry.inflight.get? id = none) ∧
        s.onRun p id mfeId stream now = s.evicted now ∨
      (s.registry.run p id mfeId stream now).1 = ⟨false, .new, .execution p⟩ ∧
        (s.evicted now).registry.completed.get? id = none ∧
        s.registry.inflight.get? id = none ∧
        s.onRun p id mfeId stream now = { s.evicted now with
          registry := { (s.evicted now).registry with
            inflight := s.registry.inflight.set id ⟨mfeId, stream, now, p⟩ }.persist
          executions := s.executions.set p { requestId := id } } := by
  obtain ⟨c, hc, hrun⟩ | ⟨-, e, hi, hrun⟩ | ⟨hc, hi, hrun⟩ :=
    s.registry.run_cases p id mfeId stream now
  · exact .inl ⟨by simp [hrun], by simp [evicted, hc], by simp [onRun, hrun, evicted]⟩
  · exact .inl ⟨by simp [hrun], by simp [hi], by simp [onRun, hrun, evicted]⟩
  · exact .inr ⟨by rw [hrun], hc, hi, by simp [onRun, hrun, evicted]⟩

theorem Sound.onRun (h : s.Sound ttl) {mfeId : JsString} {stream : Bool} (hle : s.clock ≤ now)
    (hp : s.executions.get? p = none) : (s.onRun p id mfeId stream now).Sound ttl := by
  obtain ⟨-, -, heq⟩ | ⟨-, hc, hi, heq⟩ := s.onRun_cases p id mfeId stream now
  · rw [heq]
    exact h.evicted hle
  · rw [heq]
    exact (h.evicted hle).start hp hi hc

theorem open_of_phase {x : Execution β} (h : ∀ outcome, x.phase ≠ .settled outcome) : x.Open := h

theorem Sound.step {a : RegistryAction β} (h : s.Sound ttl) (hs : registryStep s a = some s') :
    s'.Sound ttl := by
  unfold registryStep at hs
  split at hs
  · split at hs
    · rename_i hguard
      obtain rfl := Option.some.inj hs
      exact h.onRun hguard.1 hguard.2
    · cases hs
  · split at hs
    · rename_i hle
      obtain rfl := Option.some.inj hs
      rw [RequestRegistry.lookup_snd]
      exact h.evicted hle
    · cases hs
  · split at hs
    · rename_i hle
      obtain rfl := Option.some.inj hs
      exact h.evicted hle
    · cases hs
  · split at hs
    · rename_i hx
      obtain rfl := Option.some.inj hs
      exact h.setPhase hx (open_of_phase (by simp)) (by simp)
    · cases hs
  · split at hs
    · rename_i hx
      obtain rfl := Option.some.inj hs
      exact h.setPhase hx (open_of_phase (by simp)) (by simp)
    · cases hs
  · split at hs
    · rename_i hle
      split at hs
      · rename_i id outcome hx
        obtain rfl := Option.some.inj hs
        have hopen : Execution.Open ⟨id, .answered outcome⟩ := open_of_phase (by simp)
        cases outcome with
        | none => exact h.failed hx hopen hle
        | some result => exact h.succeeded hx hopen hle result
      · cases hs
    · cases hs

theorem sound_of_exec {file : Option JsString} {now₀ : ℤ} {as : List (RegistryAction β)}
    (hrun : Machine.exec registryStep (init ttl file now₀) as = some s) : s.Sound ttl :=
  Machine.exec_invariant (sound_init ttl file now₀) (fun _ _ _ h hs => h.step hs) hrun

/-- The execution is one of the id, and its promise is not settled. -/
def Outstanding (s : RegistryState β) (id : JsString) (p : ℕ) : Prop :=
  ∃ x, s.executions.get? p = some x ∧ x.requestId = id ∧ x.Open

theorem Sound.outstanding_iff (h : s.Sound ttl) :
    s.Outstanding id p ↔ ∃ e, s.registry.inflight.get? id = some e ∧ e.promise = p := by
  constructor
  · rintro ⟨x, hx, rfl, hopen⟩
    exact h.filed hx hopen
  · rintro ⟨e, he, rfl⟩
    exact h.entry he

theorem Sound.no_inflight (h : s.Sound ttl) (hnone : ∀ p, ¬ s.Outstanding id p) :
    s.registry.inflight.get? id = none := by
  cases he : s.registry.inflight.get? id with
  | none => rfl
  | some e => exact absurd (h.outstanding_iff.mpr ⟨e, he, rfl⟩) (hnone e.promise)

theorem Sound.outstanding_unique (h : s.Sound ttl) {q : ℕ} (hp : s.Outstanding id p)
    (hq : s.Outstanding id q) : p = q := by
  obtain ⟨e, he, rfl⟩ := h.outstanding_iff.mp hp
  obtain ⟨f, hf, rfl⟩ := h.outstanding_iff.mp hq
  rw [Option.some.inj (he.symm.trans hf)]

section Answers

variable (h : s.Sound ttl) (q : ℕ) (mfeId : JsString) (stream : Bool)

include h

/-- While an execution is outstanding, its id joins it. -/
theorem Sound.joins (hp : s.Outstanding id p) (hle : s.clock ≤ now) :
    (s.registry.run q id mfeId stream now).1 = ⟨true, .inflight, .execution p⟩ ∧
      (s.registry.lookup id now).1 = { state := .inflight } := by
  obtain ⟨e, he, rfl⟩ := h.outstanding_iff.mp hp
  have hcompleted : (s.registry.evictCompleted now).completed.get? id = none :=
    (h.evicted hle).apart he
  have hinflight : (s.registry.evictCompleted now).inflight.get? id = some e := he
  simp [RequestRegistry.run, RequestRegistry.lookup, OrderedMap.has, hcompleted, hinflight]

/-- Inside the window the last success is replayed. -/
theorem Sound.replays {t : Success β} (ht : s.lastSuccess id = some t) (hle : s.clock ≤ now)
    (hwindow : now ≤ t.finishedAt + ttl) :
    (s.registry.run q id mfeId stream now).1 = ⟨true, .completed, .resolved t.result⟩ ∧
      (s.registry.lookup id now).1 = ⟨.completed, some t.result⟩ := by
  cases hc : s.registry.completed.get? id with
  | none =>
      have hexpired := h.expired ht hc
      omega
  | some c =>
      obtain rfl := Option.some.inj ((h.cached hc).symm.trans ht)
      have hkept : (s.registry.evictCompleted now).completed.get? id = some c :=
        h.finishOrder.evict_eq_some.mpr ⟨hc, by rw [h.window]; exact hwindow⟩
      have hinflight : (s.registry.evictCompleted now).inflight.get? id = none := by
        cases he : s.registry.inflight.get? id with
        | none => exact he
        | some e =>
            rw [h.apart he] at hc
            cases hc
      simp [RequestRegistry.run, RequestRegistry.lookup, OrderedMap.has, hkept, hinflight]

/-- With nothing outstanding and nothing to replay an id is executed. -/
theorem Sound.executes (hnone : ∀ p, ¬ s.Outstanding id p) (hle : s.clock ≤ now)
    (hpast : ∀ t, s.lastSuccess id = some t → t.finishedAt + ttl < now) :
    (s.registry.run q id mfeId stream now).1 = ⟨false, .new, .execution q⟩ ∧
      (s.registry.lookup id now).1 = { state := .new } := by
  have hev := h.evicted hle
  have hinflight : (s.registry.evictCompleted now).inflight.get? id = none := h.no_inflight hnone
  have hcompleted : (s.registry.evictCompleted now).completed.get? id = none := by
    cases hc : (s.registry.evictCompleted now).completed.get? id with
    | none => rfl
    | some c =>
        obtain ⟨hcached, hlive⟩ := h.finishOrder.evict_eq_some.mp hc
        have hexpired := hpast _ (h.cached hcached)
        rw [h.window] at hlive
        dsimp only at hexpired
        omega
  simp [RequestRegistry.run, RequestRegistry.lookup, OrderedMap.has, hcompleted, hinflight]

end Answers

end RegistryState

end ServeInfer.ApiServer
