import ServeInfer.Lib.Machine
import ServeInfer.Scheduler.Moves

/-!
# The done map

A call of `_recordDone` enters a finished job and evicts: from the front as long as
entries have expired, and then the oldest ones beyond the limit. Both rely on the map's
order being finish order. An id that is recorded again keeps its place, so the order
lasts as long as no call overtakes the entries behind its id.
-/

namespace ServeInfer.Scheduler

/-- A call of `_recordDone`, with the reading that `_evictDone` takes of the clock. -/
structure RecordCall where
  job : Job
  entry : DoneEntry
  now : ℤ

/-- The readings of the clock: the entry's first. -/
def RecordCall.readings (c : RecordCall) : List ℤ := [c.entry.finishedAt, c.now]

variable (o : Options)

/-- The map after the call. -/
def record (done : OrderedMap String DoneEntry) (c : RecordCall) : OrderedMap String DoneEntry :=
  recordedDone o done c.job c.entry c.now

/-- The map between the two loops of `_evictDone`. -/
def expired (done : OrderedMap String DoneEntry) (c : RecordCall) :
    OrderedMap String DoneEntry :=
  (done.set c.job.requestId c.entry).dropWhile fun e =>
    ¬ (e.2.finishedAt : ℚ) ≥ c.now - o.doneTtlMs

/-- After the call the map is within its limit and has nothing that has expired, and what the
limit cost finished no later than what is left. -/
structure Evicted (done : OrderedMap String DoneEntry) (c : RecordCall) : Prop where
  bounded : (record o done c).size ≤ o.doneMaxEntries
  fresh : ∀ e ∈ (record o done c).entries, (c.now - o.doneTtlMs : ℚ) ≤ e.2.finishedAt
  oldest : ∀ e ∈ (expired o done c).entries, e ∉ (record o done c).entries →
    ∀ e' ∈ (record o done c).entries, e.2.finishedAt ≤ e'.2.finishedAt

/-- Nothing that stands behind the call's id finished before the call's entry. -/
def KeepsPlace (done : OrderedMap String DoneEntry) (c : RecordCall) : Prop :=
  ∀ e ∈ (done.entries.dropWhile fun e => e.1 ≠ c.job.requestId).tail,
    c.entry.finishedAt ≤ e.2.finishedAt

instance (done : OrderedMap String DoneEntry) (c : RecordCall) : Decidable (KeepsPlace done c) :=
  inferInstanceAs (Decidable (∀ e ∈ _, _ ≤ _))

/-- The calls, one after the other. -/
def recordStep (done : OrderedMap String DoneEntry) (c : RecordCall) :
    Option (OrderedMap String DoneEntry) :=
  some (record o done c)

/-- The map's order is finish order. -/
def FinishOrder (done : OrderedMap String DoneEntry) : Prop :=
  done.entries.Pairwise fun a b => a.2.finishedAt ≤ b.2.finishedAt

variable {o} {done done' : OrderedMap String DoneEntry} {c : RecordCall} {calls : List RecordCall}

/-- A new entry at the end, or one that overtakes nothing, leaves the order. -/
theorem FinishOrder.set (h : FinishOrder done) (hkeeps : KeepsPlace done c)
    (hpast : ∀ e ∈ done.entries, e.2.finishedAt ≤ c.entry.finishedAt) :
    FinishOrder (done.set c.job.requestId c.entry) := by
  by_cases hmem : c.job.requestId ∈ done.keys
  · obtain ⟨front, back, v, hentries, hset⟩ := OrderedMap.exists_entries_set hmem c.entry
    have hfront : ∀ e ∈ front, decide (e.1 ≠ c.job.requestId) = true := by
      have hnodup := done.nodup
      rw [hentries, List.map_append, List.map_cons] at hnodup
      intro e he
      rw [decide_eq_true_eq]
      exact (List.nodup_append.mp hnodup).2.2 _ (List.mem_map_of_mem he) _ List.mem_cons_self
    have hbehind : ∀ e ∈ back, c.entry.finishedAt ≤ e.2.finishedAt := by
      have hkeeps' := hkeeps
      rw [KeepsPlace, hentries, List.dropWhile_append_of_pos hfront,
        List.dropWhile_cons_of_neg (by simp)] at hkeeps'
      exact hkeeps'
    rw [FinishOrder, hentries, List.pairwise_append, List.pairwise_cons] at h
    obtain ⟨hordered, ⟨-, hback⟩, hacross⟩ := h
    rw [FinishOrder, hset, List.pairwise_append, List.pairwise_cons]
    refine ⟨hordered, ⟨hbehind, hback⟩, ?_⟩
    intro e he e' he'
    obtain rfl | he' := List.mem_cons.mp he'
    · apply hpast
      rw [hentries]
      exact List.mem_append_left _ he
    · exact hacross e he e' (List.mem_cons_of_mem _ he')
  · rw [FinishOrder, OrderedMap.entries_set_of_notMem c.entry hmem, List.pairwise_append]
    refine ⟨h, List.pairwise_singleton _ _, ?_⟩
    intro e he e' he'
    obtain rfl := List.mem_singleton.mp he'
    exact hpast e he

/-- What is left is the end of what has not expired. -/
theorem entries_record (done : OrderedMap String DoneEntry) (c : RecordCall) :
    (record o done c).entries =
      (expired o done c).entries.drop ((expired o done c).size - o.doneMaxEntries) := rfl

theorem expired_sublist (done : OrderedMap String DoneEntry) (c : RecordCall) :
    (expired o done c).entries.Sublist (done.set c.job.requestId c.entry).entries :=
  List.dropWhile_sublist _

theorem record_sublist (done : OrderedMap String DoneEntry) (c : RecordCall) :
    (record o done c).entries.Sublist (done.set c.job.requestId c.entry).entries :=
  (List.drop_sublist _ _).trans (expired_sublist done c)

/-- Where the order is finish order, the two loops drop what they should. -/
theorem evicted_of_finishOrder (h : FinishOrder (done.set c.job.requestId c.entry)) :
    Evicted o done c := by
  have hexpired : (expired o done c).entries =
      (done.set c.job.requestId c.entry).entries.filter fun e =>
        !decide (¬ (e.2.finishedAt : ℚ) ≥ c.now - o.doneTtlMs) := by
    apply OrderedMap.entries_dropWhile
    apply h.imp
    intro a b hab hb
    rw [decide_eq_true_eq, not_le] at hb ⊢
    exact lt_of_le_of_lt (Int.cast_le.mpr hab) hb
  have hordered : (expired o done c).entries.Pairwise fun a b =>
      a.2.finishedAt ≤ b.2.finishedAt := h.sublist (expired_sublist done c)
  refine ⟨?_, ?_, ?_⟩
  · rw [OrderedMap.size, entries_record, List.length_drop, OrderedMap.size]
    omega
  · intro e he
    rw [entries_record, hexpired] at he
    simpa using (List.mem_filter.mp (List.mem_of_mem_drop he)).2
  · intro e he hgone e' he'
    rw [entries_record] at hgone he'
    rw [← List.take_append_drop ((expired o done c).size - o.doneMaxEntries)
      (expired o done c).entries] at he hordered
    have hdropped := (List.mem_append.mp he).resolve_right hgone
    exact (List.pairwise_append.mp hordered).2.2 e hdropped e' he'

theorem clock_earlier {pre : List RecordCall} (hpre : pre <+: calls)
    (hclock : (calls.flatMap RecordCall.readings).Pairwise (· ≤ ·)) :
    (pre.flatMap RecordCall.readings).Pairwise (· ≤ ·) := by
  obtain ⟨rest, rfl⟩ := hpre
  rw [List.flatMap_append, List.pairwise_append] at hclock
  exact hclock.1

/-- Every entry was recorded by a call. -/
theorem exists_call (h : Machine.exec (recordStep o) ∅ calls = some done) :
    ∀ e ∈ done.entries, ∃ c ∈ calls, c.entry = e.2 := by
  induction calls using List.reverseRecOn generalizing done with
  | nil =>
      cases h
      intro e he
      cases he
  | append_singleton calls c ih =>
      rw [Machine.exec_snoc] at h
      obtain ⟨before, hbefore, hlast⟩ := Option.bind_eq_some_iff.mp h
      obtain rfl := Option.some.inj hlast
      intro e he
      have hset := (record_sublist before c).subset he
      by_cases hid : e.1 = c.job.requestId
      · refine ⟨c, List.mem_append_right _ (List.mem_singleton_self c), ?_⟩
        have hget := OrderedMap.get?_eq_some_iff.mpr hset
        rw [hid, OrderedMap.get?_set_self] at hget
        exact Option.some.inj hget
      · have hget := OrderedMap.get?_eq_some_iff.mpr hset
        rw [OrderedMap.get?_set_of_ne _ _ (Ne.symm hid)] at hget
        obtain ⟨c', hc', hentry⟩ := ih hbefore e (OrderedMap.get?_eq_some_iff.mp hget)
        exact ⟨c', List.mem_append_left _ hc', hentry⟩

/-- No entry finished after the clock's reading for the next one. -/
theorem finished_before (h : Machine.exec (recordStep o) ∅ calls = some done)
    (hclock : ((calls ++ [c]).flatMap RecordCall.readings).Pairwise (· ≤ ·)) :
    ∀ e ∈ done.entries, e.2.finishedAt ≤ c.entry.finishedAt := by
  intro e he
  obtain ⟨c', hc', hentry⟩ := exists_call h e he
  rw [List.flatMap_append, List.pairwise_append] at hclock
  rw [← hentry]
  apply hclock.2.2
  · exact List.mem_flatMap.mpr ⟨c', hc', List.mem_cons_self⟩
  · exact List.mem_flatMap.mpr ⟨c, List.mem_singleton_self c, List.mem_cons_self⟩

/-- Calls that overtake nothing leave finish order. -/
theorem finishOrder_of_guarded
    (hclock : (calls.flatMap RecordCall.readings).Pairwise (· ≤ ·))
    (hkeeps : Machine.Guarded (recordStep o) KeepsPlace ∅ calls)
    (h : Machine.exec (recordStep o) ∅ calls = some done) : FinishOrder done := by
  induction calls using List.reverseRecOn generalizing done with
  | nil =>
      cases h
      exact List.Pairwise.nil
  | append_singleton calls c ih =>
      rw [Machine.exec_snoc] at h
      obtain ⟨before, hbefore, hlast⟩ := Option.bind_eq_some_iff.mp h
      obtain rfl := Option.some.inj hlast
      have hpre : calls <+: calls ++ [c] := List.prefix_append calls [c]
      have hordered := (ih (clock_earlier hpre hclock) (hkeeps.restrict hpre) hbefore).set
        (hkeeps calls c (List.prefix_refl _) before hbefore) (finished_before hbefore hclock)
      exact hordered.sublist (record_sublist before c)

/-- With a clock that does not go back, every call evicts as it should in every run in which no
call overtakes what stands behind its id. -/
theorem done_map_evicted (o : Options) (calls : List RecordCall)
    (hclock : (calls.flatMap RecordCall.readings).Pairwise (· ≤ ·))
    (hkeeps : Machine.Guarded (recordStep o) KeepsPlace ∅ calls) :
    Machine.Guarded (recordStep o) (Evicted o) ∅ calls := by
  intro pre c hpre before hbefore
  have hpast : pre <+: calls := (List.prefix_append pre [c]).trans hpre
  apply evicted_of_finishOrder
  apply FinishOrder.set
  · exact finishOrder_of_guarded (clock_earlier hpast hclock) (hkeeps.restrict hpast) hbefore
  · exact hkeeps pre c hpre before hbefore
  · exact finished_before hbefore (clock_earlier hpre hclock)

/-- A job that has finished, recorded at once. -/
def recorded (requestId : String) (now : ℤ) : RecordCall where
  job := ⟨0, requestId, "m", .normal, false, 0⟩
  entry := { state := .done, requestId := requestId, finishedAt := now }
  now := now

/-- The newest id is recorded again, and then another one. -/
theorem done_map_evicted_newest :
    Machine.Guarded (recordStep {}) (Evicted {}) ∅
      [recorded "a" 0, recorded "b" 1, recorded "b" 300000, recorded "c" 300002] := by
  apply done_map_evicted
  · decide
  · decide +kernel

/-- The older id is recorded again. Its entry is the first, and the one behind it outlives its
time. -/
theorem not_done_map_evicted :
    ¬ ∀ calls : List RecordCall, (calls.flatMap RecordCall.readings).Pairwise (· ≤ ·) →
      Machine.Guarded (recordStep {}) (Evicted {}) ∅ calls := by
  intro h
  have hevicted := h [recorded "a" 0, recorded "b" 1, recorded "a" 300000, recorded "c" 300002]
    (by decide) [recorded "a" 0, recorded "b" 1, recorded "a" 300000] (recorded "c" 300002)
    (List.prefix_refl _) _ rfl
  have hfresh := hevicted.fresh ("b", (recorded "b" 1).entry) (by decide +kernel)
  revert hfresh
  decide +kernel

end ServeInfer.Scheduler
