import ServeInfer.ApiServer.PoolMoves

/-!
# One request per worker

The books of the pool: an entry in flight is a run that is not done on a busy
worker, every busy worker has one, and no worker has two. Every step from such a
state is a chain of moves, and every move keeps the books.
-/

namespace ServeInfer.ApiServer

namespace WorkerPool

variable {o : Options} {s s' : WorkerPool} {w : ℤ} {r : ℕ} {c : Core}

/-- What the entries in flight, the runs and the statuses have to do with each other. -/
structure Booked (s : WorkerPool) : Prop where
  entry : ∀ {id e}, s.inFlight.get? id = some e →
    (∃ c, s.cores[e.run]? = some c ∧ c.workerId = e.workerId ∧ c.requestId = id ∧ c.done = false) ∧
      s.status e.workerId = some .busy
  unique : ∀ {id id' e e'}, s.inFlight.get? id = some e → s.inFlight.get? id' = some e' →
    e.workerId = e'.workerId → id = id'
  busy : ∀ {w}, s.status w = some .busy → ∃ id e, s.inFlight.get? id = some e ∧ e.workerId = w
  filed : ∀ {r c}, s.cores[r]? = some c → c.done = false →
    s.inFlight.get? c.requestId = some ⟨c.workerId, r⟩ ∧ c.cleanupDone = false

/-- An entry in flight is a run that is not done, under its id and on its worker, and every such run
has its entry. -/
structure Entered (s : WorkerPool) : Prop where
  entry : ∀ {id e}, s.inFlight.get? id = some e →
    ∃ c, s.cores[e.run]? = some c ∧ c.workerId = e.workerId ∧ c.requestId = id ∧ c.done = false
  filed : ∀ {r c}, s.cores[r]? = some c → c.done = false →
    s.inFlight.get? c.requestId = some ⟨c.workerId, r⟩ ∧ c.cleanupDone = false
  present : ∀ {r : ℕ} {c : Core}, s.cores[r]? = some c → c.done = false →
    (s.status c.workerId).isSome

theorem Booked.entered (h : s.Booked) : s.Entered where
  entry he := (h.entry he).1
  filed := h.filed
  present hc hdone := Option.isSome_of_eq_some (h.entry (h.filed hc hdone).1).2

/-- Statuses may change, as long as no worker gets lost. -/
theorem Entered.of_eq (h : s.Entered) (hinFlight : s'.inFlight = s.inFlight)
    (hcores : s'.cores = s.cores) (hstatus : ∀ v, (s.status v).isSome → (s'.status v).isSome) :
    s'.Entered := by
  constructor
  · rw [hinFlight, hcores]
    exact h.entry
  · rw [hinFlight, hcores]
    exact h.filed
  · rw [hcores]
    exact fun hc hdone => hstatus _ (h.present hc hdone)

theorem isSome_update {status : ℤ → Option WorkerStatus} {st : WorkerStatus} (v : ℤ)
    (h : (status v).isSome) : (Function.update status w (some st) v).isSome := by
  by_cases hv : v = w
  · subst hv
    rw [Function.update_self]
    rfl
  · rw [Function.update_of_ne hv]
    exact h

theorem Entered.opened {request : InferRequest} (h : s.Entered) (hm : s.Opened s' w request) :
    s'.Entered := by
  have hlen : s.cores.length = s.runs.length := by rw [cores, List.length_map]
  have hnew : s'.cores[s.runs.length]? = some ⟨w, request.requestId, false, false⟩ := by
    rw [hm.cores, ← hlen, List.getElem?_concat_length]
  have hold : ∀ {k : ℕ} {c : Core}, s'.cores[k]? = some c → s.cores[k]? = some c ∨
      k = s.runs.length ∧ c = ⟨w, request.requestId, false, false⟩ := by
    intro k c hc
    by_cases hk : k < s.cores.length
    · rw [hm.cores, List.getElem?_append_left hk] at hc
      exact .inl hc
    · have hlt := (List.getElem?_eq_some_iff.mp hc).1
      rw [hm.cores, List.length_append, List.length_singleton] at hlt
      obtain rfl : k = s.runs.length := by omega
      exact .inr ⟨rfl, Option.some.inj (hc.symm.trans hnew)⟩
  constructor
  · intro id e he
    rw [hm.inFlight, OrderedMap.get?_set] at he
    split at he
    · rename_i heq
      obtain rfl := Option.some.inj he
      exact ⟨_, hnew, rfl, heq, rfl⟩
    · obtain ⟨c, hc, hrest⟩ := h.entry he
      refine ⟨c, ?_, hrest⟩
      rw [hm.cores, List.getElem?_append_left (List.getElem?_eq_some_iff.mp hc).1, hc]
  · intro k c hc hdone
    obtain hc | ⟨rfl, rfl⟩ := hold hc
    · obtain ⟨he, hclean⟩ := h.filed hc hdone
      have hid : request.requestId ≠ c.requestId := by
        intro heq
        rw [← heq, hm.fresh] at he
        cases he
      rw [hm.inFlight, OrderedMap.get?_set_of_ne _ _ hid]
      exact ⟨he, hclean⟩
    · rw [hm.inFlight]
      exact ⟨OrderedMap.get?_set_self _ _ _, rfl⟩
  · intro k c hc hdone
    rw [hm.status]
    obtain hc | ⟨rfl, rfl⟩ := hold hc
    · exact isSome_update _ (h.present hc hdone)
    · rw [Function.update_self]
      rfl

/-- The runs of the other entries are not touched. -/
theorem Entered.run_ne {id : JsString} {e : InFlight} (h : s.Entered) (hc : s.cores[r]? = some c)
    (hid : id ≠ c.requestId) (he : s.inFlight.get? id = some e) : e.run ≠ r := by
  rintro rfl
  obtain ⟨d, hd, -, hdid, -⟩ := h.entry he
  rw [hc] at hd
  obtain rfl := Option.some.inj hd
  exact hid hdid.symm

theorem Entered.ended {st : WorkerStatus} (h : s.Entered) (hm : s.Ended s' r c st) :
    s'.Entered := by
  obtain ⟨hfiled, -⟩ := h.filed hm.found hm.undone
  have hold : ∀ {k : ℕ} {d : Core}, s'.cores[k]? = some d → d.done = false →
      k ≠ r ∧ s.cores[k]? = some d := by
    intro k d hd hdone
    obtain hold | ⟨-, hdone'⟩ := hm.cores k d hd
    · exact hold
    · rw [hdone] at hdone'
      cases hdone'
  constructor
  · intro id e he
    rw [hm.inFlight, OrderedMap.get?_delete] at he
    split at he
    · cases he
    · rename_i hne
      obtain ⟨d, hd, hrest⟩ := h.entry he
      refine ⟨d, ?_, hrest⟩
      have hlt : e.run < s'.cores.length := by
        rw [hm.length]
        exact (List.getElem?_eq_some_iff.mp hd).1
      have hd' := List.getElem?_eq_getElem hlt
      obtain ⟨-, hsame⟩ | ⟨heq, -⟩ := hm.cores _ _ hd'
      · rw [hd', ← hsame, hd]
      · exact absurd heq (h.run_ne hm.found (Ne.symm hne) he)
  · intro k d hd hdone
    obtain ⟨hk, hd⟩ := hold hd hdone
    obtain ⟨he, hclean⟩ := h.filed hd hdone
    have hid : c.requestId ≠ d.requestId := by
      intro heq
      rw [← heq, hfiled] at he
      exact hk (congrArg InFlight.run (Option.some.inj he)).symm
    refine ⟨?_, hclean⟩
    rw [hm.inFlight, OrderedMap.get?_delete, if_neg hid, he]
  · intro k d hd hdone
    rw [hm.status]
    exact isSome_update _ (h.present (hold hd hdone).2 hdone)

/-- Every move keeps the entries. -/
theorem Entered.move (h : s.Entered) (hm : Move s s') : s'.Entered := by
  cases hm with
  | quiet hq => exact h.of_eq hq.inFlight hq.cores fun v hv => hq.status ▸ hv
  | restatus w st hm =>
      refine h.of_eq hm.inFlight hm.cores fun v hv => ?_
      rw [hm.status]
      exact isSome_update v hv
  | opened w request hm => exact h.opened hm
  | ended r c st hm => exact h.ended hm

theorem Booked.quiet (h : s.Booked) (hq : s.Quiet s') : s'.Booked := by
  obtain ⟨hstatus, hinFlight, hcores⟩ := hq
  constructor
  · rw [hstatus, hinFlight, hcores]
    exact h.entry
  · rw [hinFlight]
    exact h.unique
  · rw [hstatus, hinFlight]
    exact h.busy
  · rw [hinFlight, hcores]
    exact h.filed

theorem Booked.restatus {st : WorkerStatus} (h : s.Booked) (hm : s.Restatus s' w st) :
    s'.Booked := by
  have hne : ∀ {v}, s.status v = some .busy → v ≠ w := by
    rintro v hv rfl
    exact hm.idle hv
  constructor
  · intro id e he
    rw [hm.inFlight] at he
    obtain ⟨hc, hbusy⟩ := h.entry he
    rw [hm.cores, hm.status, Function.update_of_ne (hne hbusy)]
    exact ⟨hc, hbusy⟩
  · rw [hm.inFlight]
    exact h.unique
  · intro v hv
    rw [hm.status] at hv
    by_cases hvw : v = w
    · subst hvw
      rw [Function.update_self] at hv
      exact absurd (Option.some.inj hv) hm.ne
    · rw [Function.update_of_ne hvw] at hv
      rw [hm.inFlight]
      exact h.busy hv
  · rw [hm.inFlight, hm.cores]
    exact h.filed

theorem Booked.opened {request : InferRequest} (h : s.Booked) (hm : s.Opened s' w request) :
    s'.Booked := by
  have hentered := h.entered.opened hm
  have hidle : ∀ {id e}, s.inFlight.get? id = some e → e.workerId ≠ w := by
    rintro id e he rfl
    have hbusy := (h.entry he).2
    rw [hm.ready] at hbusy
    cases hbusy
  have hget : ∀ {id e}, s'.inFlight.get? id = some e →
      id = request.requestId ∧ e = ⟨w, s.runs.length⟩ ∨
        id ≠ request.requestId ∧ s.inFlight.get? id = some e := by
    intro id e he
    rw [hm.inFlight, OrderedMap.get?_set] at he
    split at he
    · rename_i heq
      exact .inl ⟨heq.symm, (Option.some.inj he).symm⟩
    · rename_i hne
      exact .inr ⟨Ne.symm hne, he⟩
  constructor
  · intro id e he
    refine ⟨hentered.entry he, ?_⟩
    rw [hm.status]
    obtain ⟨rfl, rfl⟩ | ⟨-, he⟩ := hget he
    · exact Function.update_self ..
    · rw [Function.update_of_ne (hidle he)]
      exact (h.entry he).2
  · intro id id' e e' he he' heq
    obtain ⟨rfl, rfl⟩ | ⟨-, he⟩ := hget he
    · obtain ⟨rfl, -⟩ | ⟨-, he'⟩ := hget he'
      · rfl
      · exact absurd heq.symm (hidle he')
    · obtain ⟨rfl, rfl⟩ | ⟨-, he'⟩ := hget he'
      · exact absurd heq (hidle he)
      · exact h.unique he he' heq
  · intro v hv
    rw [hm.status] at hv
    by_cases hvw : v = w
    · subst hvw
      exact ⟨request.requestId, _, by rw [hm.inFlight, OrderedMap.get?_set_self], rfl⟩
    · rw [Function.update_of_ne hvw] at hv
      obtain ⟨id, e, he, hew⟩ := h.busy hv
      have hid : request.requestId ≠ id := by
        rintro rfl
        rw [hm.fresh] at he
        cases he
      exact ⟨id, e, by rw [hm.inFlight, OrderedMap.get?_set_of_ne _ _ hid, he], hew⟩
  · exact hentered.filed

theorem Booked.ended {st : WorkerStatus} (h : s.Booked) (hm : s.Ended s' r c st) : s'.Booked := by
  have hentered := h.entered.ended hm
  obtain ⟨hfiled, -⟩ := h.filed hm.found hm.undone
  have hget : ∀ {id e}, s'.inFlight.get? id = some e →
      id ≠ c.requestId ∧ s.inFlight.get? id = some e := by
    intro id e he
    rw [hm.inFlight, OrderedMap.get?_delete] at he
    split at he
    · cases he
    · rename_i hne
      exact ⟨Ne.symm hne, he⟩
  have hother : ∀ {id e}, id ≠ c.requestId → s.inFlight.get? id = some e →
      e.workerId ≠ c.workerId := by
    intro id e hid he heq
    exact hid (h.unique he hfiled heq)
  constructor
  · intro id e he
    refine ⟨hentered.entry he, ?_⟩
    obtain ⟨hid, he⟩ := hget he
    rw [hm.status, Function.update_of_ne (hother hid he)]
    exact (h.entry he).2
  · intro id id' e e' he he' heq
    exact h.unique (hget he).2 (hget he').2 heq
  · intro v hv
    rw [hm.status] at hv
    by_cases hvw : v = c.workerId
    · subst hvw
      rw [Function.update_self] at hv
      exact absurd (Option.some.inj hv) hm.ne
    · rw [Function.update_of_ne hvw] at hv
      obtain ⟨id, e, he, hew⟩ := h.busy hv
      have hid : c.requestId ≠ id := by
        rintro rfl
        rw [hfiled] at he
        obtain rfl := Option.some.inj he
        exact hvw hew.symm
      refine ⟨id, e, ?_, hew⟩
      rw [hm.inFlight, OrderedMap.get?_delete, if_neg hid, he]
  · exact hentered.filed

/-- Every move keeps the books. -/
theorem Booked.move (h : s.Booked) (hm : Move s s') : s'.Booked := by
  cases hm with
  | quiet hq => exact h.quiet hq
  | restatus w st hm => exact h.restatus hm
  | opened w request hm => exact h.opened hm
  | ended r c st hm => exact h.ended hm

/-- A chain of moves. -/
abbrev Moves : WorkerPool → WorkerPool → Prop := Relation.ReflTransGen Move

theorem Booked.moves (h : s.Booked) (hm : Moves s s') : s'.Booked := by
  induction hm with
  | refl => exact h
  | tail _ hm ih => exact ih.move hm

theorem Entered.moves (h : s.Entered) (hm : Moves s s') : s'.Entered := by
  induction hm with
  | refl => exact h
  | tail _ hm ih => exact ih.move hm

end WorkerPool

end ServeInfer.ApiServer
