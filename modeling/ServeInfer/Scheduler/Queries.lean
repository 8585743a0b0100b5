import ServeInfer.Scheduler.LiveIds

/-!
# What the scheduler tells about its queue

`getQueueStatus` and `getSnapshot` read the tables that admission works on. The
positions they tell are places in the order of service: that of the stable sort, of
which `_pickNextJob` takes the first job that may run.
-/

namespace ServeInfer.Scheduler

variable {α : Type} {o : Options} {clock : ℕ → ℤ}

/-- The answer of `getQueueStatus`: the record it builds, or the entry of the `done` map. -/
inductive QueueStatus
  | place (requestId state : String) (position : ℤ) (estimatedWaitMs : ℚ)
  | entry (doneState : DoneEntry)
  deriving DecidableEq

/-- `getQueueStatus`; only a queued request makes it read the clock. -/
def getQueueStatus (o : Options) (clock : ℕ → ℤ) (s : State α) (requestId : String) :
    State α × QueueStatus :=
  match s.active.get? requestId with
  | some _ => (s, .place requestId "active" 0 0)
  | none =>
      if s.queue.any fun job => job.requestId = requestId then
        let position := getQueuePosition o (clock s.reads) s.queue requestId
        (s.tick, .place requestId "queued" position (estimateWaitMs o s.avgDurationMs position))
      else
        match s.done.get? requestId with
        | some doneState => (s, .entry doneState)
        | none => (s, .place requestId "not_found" (-1) (-1))

/-- The answer of `getSnapshot`. -/
structure Snapshot where
  maxSlots : ℕ
  maxPerMfe : ℕ
  maxQueue : ℕ
  activeCount : ℕ
  queueLength : ℕ
  activeByMfe : OrderedMap String ℕ

def getSnapshot (o : Options) (s : State α) : Snapshot where
  maxSlots := o.maxSlots
  maxPerMfe := o.maxPerMfe
  maxQueue := o.maxQueue
  activeCount := s.active.size
  queueLength := s.queue.length
  activeByMfe := s.perMfeActive

/-- The comparator's order, spelled out. -/
theorem compareJobs_le_iff (now : ℤ) (a b : Job) :
    compareJobs o now a b ≤ 0 ↔
      effectivePriority o b now < effectivePriority o a now ∨
        effectivePriority o b now = effectivePriority o a now ∧ a.createdAt ≤ b.createdAt := by
  unfold compareJobs
  dsimp only
  split
  · omega
  · omega

instance isTrans_compareJobs (now : ℤ) : IsTrans Job fun a b => compareJobs o now a b ≤ 0 where
  trans a b c hab hbc := by
    rw [compareJobs_le_iff] at hab hbc ⊢
    omega

instance total_compareJobs (now : ℤ) : Std.Total fun a b : Job => compareJobs o now a b ≤ 0 where
  total a b := by
    rw [compareJobs_le_iff, compareJobs_le_iff]
    omega

/-- The job picked is the first that may run, in the order of the whole queue. -/
theorem pickNextJob_eq (now : ℤ) (t : Tables) :
    pickNextJob o now t = (sortJobs o now t.queue).find? (canRun o t) :=
  StableSort.head?_insertionSort_filter (canRun o t) t.queue

theorem perm_sortJobs (now : ℤ) (queue : List Job) : (sortJobs o now queue).Perm queue :=
  List.perm_insertionSort _ queue

theorem nodup_sortJobs {queue : List Job} (now : ℤ) (hnd : (queue.map Job.requestId).Nodup) :
    ((sortJobs o now queue).map Job.requestId).Nodup :=
  ((perm_sortJobs now queue).map Job.requestId).nodup_iff.mpr hnd

/-- A job's position is one more than its index in the sorted queue. -/
theorem getQueuePosition_getElem {now : ℤ} {queue : List Job}
    (hnd : (queue.map Job.requestId).Nodup) {i : ℕ} {job : Job}
    (hi : (sortJobs o now queue)[i]? = some job) :
    getQueuePosition o now queue job.requestId = i + 1 := by
  obtain ⟨hlt, hget⟩ := List.getElem?_eq_some_iff.mp hi
  have hfind : (sortJobs o now queue).findIdx? (fun j => j.requestId = job.requestId) = some i := by
    rw [List.findIdx?_eq_some_iff_getElem]
    refine ⟨hlt, by simp [hget], ?_⟩
    intro j hj hsame
    have heq : ((sortJobs o now queue).map Job.requestId)[i]? =
        ((sortJobs o now queue).map Job.requestId)[j]? := by
      simpa [hi, List.getElem?_eq_getElem (hj.trans hlt)] using (of_decide_eq_true hsame).symm
    have hij := (List.getElem?_inj (by simpa using hlt) (nodup_sortJobs now hnd)).mp heq
    omega
  unfold getQueuePosition
  rw [hfind]

/-- A queued job has its place in the sorted queue, and its position is read off there. -/
theorem exists_getElem_sortJobs (now : ℤ) {queue : List Job}
    (hnd : (queue.map Job.requestId).Nodup) {job : Job} (hj : job ∈ queue) :
    ∃ i : ℕ, (sortJobs o now queue)[i]? = some job ∧
      getQueuePosition o now queue job.requestId = i + 1 := by
  obtain ⟨i, hi⟩ := List.mem_iff_getElem?.mp ((perm_sortJobs (o := o) now queue).mem_iff.mpr hj)
  exact ⟨i, hi, getQueuePosition_getElem hnd hi⟩

/-- The job picked is the one with the smallest position among those that may run. -/
theorem pickNextJob_iff {now : ℤ} {t : Tables} (hnd : (t.queue.map Job.requestId).Nodup)
    {job : Job} :
    pickNextJob o now t = some job ↔
      job ∈ t.queue ∧ canRun o t job = true ∧ ∀ other ∈ t.queue, canRun o t other = true →
        getQueuePosition o now t.queue job.requestId ≤
          getQueuePosition o now t.queue other.requestId := by
  rw [pickNextJob_eq, List.find?_eq_some_iff_getElem]
  constructor
  · rintro ⟨hcan, i, hlt, hget, hfirst⟩
    have hi : (sortJobs o now t.queue)[i]? = some job := List.getElem?_eq_some_iff.mpr ⟨hlt, hget⟩
    refine ⟨(perm_sortJobs now t.queue).subset (List.mem_of_getElem? hi), hcan, ?_⟩
    intro other hother hcan'
    obtain ⟨j, hj, hpos⟩ := exists_getElem_sortJobs (o := o) now hnd hother
    rw [getQueuePosition_getElem hnd hi, hpos]
    by_contra hbefore
    have hji : j < i := by omega
    have hnot := hfirst j hji
    rw [(List.getElem?_eq_some_iff.mp hj).2, hcan'] at hnot
    cases hnot
  · rintro ⟨hmem, hcan, hleast⟩
    obtain ⟨i, hi, hpos⟩ := exists_getElem_sortJobs (o := o) now hnd hmem
    obtain ⟨hlt, hget⟩ := List.getElem?_eq_some_iff.mp hi
    refine ⟨hcan, i, hlt, hget, ?_⟩
    intro j hji
    by_contra hrun
    have hj := List.getElem?_eq_getElem (hji.trans hlt)
    have hle := hleast _ ((perm_sortJobs now t.queue).subset (List.mem_of_getElem? hj))
      (by simpa using hrun)
    rw [hpos, getQueuePosition_getElem hnd hj] at hle
    omega

theorem getQueueStatus_active {s : State α} {requestId : String}
    (h : requestId ∈ s.active.keys) :
    (getQueueStatus o clock s requestId).2 = .place requestId "active" 0 0 := by
  have hsome : s.active.get? requestId ≠ none := fun hnone =>
    OrderedMap.get?_eq_none_iff.mp hnone h
  obtain ⟨job, hjob⟩ := Option.ne_none_iff_exists'.mp hsome
  simp only [getQueueStatus, hjob]

theorem getQueueStatus_queued {s : State α} {job : Job}
    (hnone : s.active.get? job.requestId = none) (hj : job ∈ s.queue) :
    (getQueueStatus o clock s job.requestId).2 =
      .place job.requestId "queued" (getQueuePosition o (clock s.reads) s.queue job.requestId)
        (estimateWaitMs o s.avgDurationMs
          (getQueuePosition o (clock s.reads) s.queue job.requestId)) := by
  have hany : (s.queue.any fun item => item.requestId = job.requestId) = true :=
    List.any_eq_true.mpr ⟨job, hj, by simp⟩
  simp only [getQueueStatus, hnone, hany, if_true]

/-- What a run makes of the tables that the answers are read from: no count of zero is kept, the
queue keeps to its limit, and every start took the job that was picked at some reading. -/
structure Told (o : Options) (clock : ℕ → ℤ) (s : State α) : Prop where
  positive : ∀ m n, s.perMfeActive.get? m = some n → 0 < n
  bounded : s.queue.length ≤ o.maxQueue
  picked : ∀ p ∈ picks s.trace, ∃ n < s.reads, pickNextJob o (clock n) p.2 = some p.1

namespace Told

variable {s t : State α}

/-- A move that adds nothing to the queue, starts nothing and gives no slot back. -/
theorem of_move (h : Told o clock s) (hc : t.perMfeActive = s.perMfeActive)
    (hq : t.queue.length ≤ s.queue.length) (hr : s.reads ≤ t.reads)
    (hp : picks t.trace = picks s.trace) : Told o clock t where
  positive := by rw [hc]; exact h.positive
  bounded := hq.trans h.bounded
  picked := by
    rw [hp]
    intro p hin
    obtain ⟨n, hn, hpick⟩ := h.picked p hin
    exact ⟨n, hn.trans_le hr, hpick⟩

theorem start (h : Told o clock s) {job : Job}
    (hpick : pickNextJob o (clock s.reads) s.toTables = some job) :
    Told o clock (startPicked clock s.tick job) := by
  rw [startPicked_eq]
  refine ⟨?_, ?_, ?_⟩
  · intro m n hget
    simp only [State.tick, OrderedMap.get?_set] at hget
    split at hget
    · cases hget
      exact Nat.succ_pos _
    · exact h.positive m n hget
  · exact (unqueue_sublist _ _).length_le.trans h.bounded
  · intro p hp
    simp only [picks_append, picks_cons_picked, picks_notified, List.mem_append,
      List.mem_singleton] at hp
    rcases hp with hold | rfl
    · obtain ⟨n, hn, hpick'⟩ := h.picked p hold
      exact ⟨n, by simp only [State.tick]; omega, hpick'⟩
    · exact ⟨s.reads, by simp only [State.tick]; omega, hpick⟩

theorem free (h : Told o clock s) (k : ℕ) (r : Run α) : Told o clock (freeSlot clock s k r) := by
  rw [freeSlot_eq]
  refine ⟨?_, h.bounded, ?_⟩
  · intro m n hget
    simp only [lowered] at hget
    split at hget
    · rw [OrderedMap.get?_delete] at hget
      split at hget
      · cases hget
      · exact h.positive m n hget
    · rw [OrderedMap.get?_set] at hget
      split at hget
      · cases hget
        omega
      · exact h.positive m n hget
  · intro p hp
    obtain ⟨n, hn, hpick⟩ := h.picked p hp
    exact ⟨n, hn.trans (Nat.lt_succ_self _), hpick⟩

theorem timedOut (h : Told o clock s) (k : ℕ) (r : Run α) : Told o clock (timeOut o clock s k r) := by
  rw [timeOut_eq]
  exact h.of_move rfl le_rfl (Nat.le_add_right _ _) (by simp)

variable (o clock) in
/-- No move leaves the answers without their ground. -/
theorem kept : Kept o clock (Told o clock (α := α)) where
  stay _ h := h
  tick _ h := h.of_move rfl le_rfl (Nat.le_succ _) rfl
  start _ _ h _ hpick := h.start hpick
  accept req _ h hroom := by
    rw [accept_eq]
    refine ⟨h.positive, ?_, ?_⟩
    · rw [List.length_append, List.length_singleton]
      exact hroom
    · intro p hp
      rw [picks_append, picks_notified, List.append_nil] at hp
      obtain ⟨n, hn, hpick⟩ := h.picked p hp
      exact ⟨n, hn.trans_le (Nat.le_add_right _ _), hpick⟩
  disarm _ _ _ h _ _ _ _ := h.of_move rfl le_rfl le_rfl rfl
  expire _ job _ h _ _ _ _ := by
    rw [expireQueued_eq]
    exact h.of_move rfl (unqueue_sublist _ _).length_le (Nat.le_add_right _ _)
      (by simp [clearQueueTimer, State.setCell])
  cancelQueued _ job _ h _ := by
    rw [cancelQueued_eq]
    exact h.of_move rfl (unqueue_sublist _ _).length_le (Nat.le_add_right _ _) (by simp)
  abort _ _ _ h _ := h.of_move rfl le_rfl le_rfl rfl
  timeOut k r _ h _ _ _ _ := h.timedOut k r
  timeOutFree k r _ h _ _ _ _ := (h.timedOut k r).free k r
  call _ _ _ h _ _ := h.of_move rfl le_rfl le_rfl (by simp [State.log, State.setRun])
  settle _ _ _ _ h _ _ := h.of_move rfl le_rfl le_rfl rfl
  react k r result _ h _ _ ht := by
    rw [react_eq o clock ht]
    exact h.of_move rfl le_rfl (Nat.le_add_right _ _) (by simp)
  reactLate _ _ _ _ h _ _ _ := h.of_move rfl le_rfl le_rfl rfl
  finish _ _ _ h _ _ _ := h.of_move rfl le_rfl le_rfl rfl
  finishFree k r _ h _ _ _ :=
    Told.free (h.of_move (t := State.setRun _ k fun r => { r with stage := .finished }) rfl le_rfl
      le_rfl rfl) k r

theorem start_of_run : Told o clock (init o : State α) where
  positive m n h := by simp [init] at h
  bounded := Nat.zero_le _
  picked := by simp [init]

end Told

/-- The positions told to the queued requests count from one through the queue, and at every
start they were the order of service: the job started was the one told the smallest position
among those that might run. An ageing interval of 0 would make the source divide by zero. -/
theorem positions_are_service_order (_hage : o.agingMs ≠ 0) {as : List (Action α)} {s : State α}
    (hg : Machine.Guarded (step o clock) NotReused (init o) as)
    (h : exec o clock as = some s) :
    (s.queue.map fun job => (getQueueStatus o clock s job.requestId).2).Perm
        ((sortJobs o (clock s.reads) s.queue).mapIdx fun i job =>
          .place job.requestId "queued" (i + 1 : ℕ) (estimateWaitMs o s.avgDurationMs (i + 1 : ℕ))) ∧
      ∀ job before, Event.picked job before ∈ s.trace → ∃ n < s.reads,
        job ∈ before.queue ∧ canRun o before job = true ∧
          ∀ other ∈ before.queue, canRun o before other = true →
            getQueuePosition o (clock n) before.queue job.requestId ≤
              getQueuePosition o (clock n) before.queue other.requestId := by
  have hd : DistinctIds s := distinctIds_of_notReused hg h
  have htold : Told o clock s := (Told.kept o clock).run Told.start_of_run h
  constructor
  · have hperm := perm_sortJobs (o := o) (clock s.reads) s.queue
    have hlist : (sortJobs o (clock s.reads) s.queue).map
        (fun job => (getQueueStatus o clock s job.requestId).2) =
        (sortJobs o (clock s.reads) s.queue).mapIdx fun i job =>
          .place job.requestId "queued" (i + 1 : ℕ)
            (estimateWaitMs o s.avgDurationMs (i + 1 : ℕ)) := by
      apply List.ext_getElem?
      intro i
      rw [List.getElem?_map, List.getElem?_mapIdx]
      cases hi : (sortJobs o (clock s.reads) s.queue)[i]? with
      | none => rfl
      | some job =>
          have hj : job ∈ s.queue := hperm.subset (List.mem_of_getElem? hi)
          rw [Option.map_some, Option.map_some,
            getQueueStatus_queued (hd.get?_eq_none hj) hj,
            getQueuePosition_getElem hd.queue_nodup hi, Nat.cast_succ]
    exact hlist ▸ (hperm.map _).symm
  · intro job before hpicked
    obtain ⟨n, hn, hpick⟩ := htold.picked _ (mem_picks.mpr hpicked)
    have hnd := hd.distinct _ (List.mem_append_left _ (mem_picks.mpr hpicked))
    exact ⟨n, hn, (pickNextJob_iff hnd).mp hpick⟩

/-- One slot, taken, and two requests that wait for it, the later one more urgent. -/
def twoWaiting : List (Action ℕ) :=
  [.enqueue { requestId := "a", mfeId := "m" },
    .enqueue { requestId := "b", mfeId := "m", priority := "low" },
    .enqueue { requestId := "c", mfeId := "m", priority := "high" }]

theorem positions_are_service_order_twoWaiting :
    ∃ s, exec { maxSlots := 1 } (fun _ => 0) twoWaiting = some s ∧
      (s.queue.map fun job =>
          (getQueueStatus { maxSlots := 1 } (fun _ => 0) s job.requestId).2).Perm
        ((sortJobs { maxSlots := 1 } 0 s.queue).mapIdx fun i job =>
          .place job.requestId "queued" (i + 1 : ℕ)
            (estimateWaitMs { maxSlots := 1 } s.avgDurationMs (i + 1 : ℕ))) := by
  obtain ⟨s, hs⟩ := Option.isSome_iff_exists.mp
    (show (exec { maxSlots := 1 } (fun _ => 0) twoWaiting).isSome = true by decide +kernel)
  have hg : Machine.Guarded (step { maxSlots := 1 } fun _ => 0) NotReused
      (init { maxSlots := 1 } : State ℕ) twoWaiting := by
    decide +kernel
  exact ⟨s, hs, (positions_are_service_order (by norm_num) hg hs).1⟩

/-- The texts of a finished job's states. -/
def DoneState.text : DoneState → String
  | timeout => "timeout"
  | cancelled => "cancelled"
  | done => "done"
  | failed => "failed"

/-- The `state` member of an answer to `getQueueStatus`. -/
def QueueStatus.state : QueueStatus → String
  | place _ state _ _ => state
  | entry doneState => doneState.state.text

/-- The `state` member of an answer to `cancel`. -/
def CancelResult.state : CancelResult → String
  | queued => "queued"
  | active => "active"
  | done state => state.text
  | notFound => "not_found"

theorem DoneState.text_ne (d : DoneState) : d.text ≠ "active" ∧ d.text ≠ "queued" := by
  cases d <;> decide

variable (o clock) in
/-- An id in neither table is reported from the `done` map, by both methods. -/
theorem states_of_elsewhere {s : State α} {requestId : String}
    (ha : requestId ∉ s.active.keys) (hq : ∀ job ∈ s.queue, job.requestId ≠ requestId) :
    (getQueueStatus o clock s requestId).2.state = (cancel o clock s requestId).2.state ∧
      (cancel o clock s requestId).2.state ≠ "active" ∧
      (cancel o clock s requestId).2.state ≠ "queued" := by
  have hnone := OrderedMap.get?_eq_none_iff.mpr ha
  have hany : (s.queue.any fun job => job.requestId = requestId) = false := by
    rw [List.any_eq_false]
    intro job hj
    simpa using hq job hj
  have hfind : (s.queue.find? fun job => job.requestId = requestId) = none := by
    rw [List.find?_eq_none]
    intro job hj
    simpa using hq job hj
  simp only [getQueueStatus, cancel, hnone, hany, hfind, Bool.false_eq_true, if_false]
  cases s.done.get? requestId with
  | none => simp [QueueStatus.state, CancelResult.state]
  | some e => exact ⟨rfl, e.state.text_ne⟩

/-- An id is reported where its job stands, and `cancel` finds it there. -/
theorem states_of_distinct {s : State α} (hd : DistinctIds s) (requestId : String) :
    (getQueueStatus o clock s requestId).2.state = (cancel o clock s requestId).2.state ∧
      ((getQueueStatus o clock s requestId).2.state = "active" ↔ requestId ∈ s.active.keys) ∧
      ((getQueueStatus o clock s requestId).2.state = "queued" ↔
        requestId ∈ s.queue.map Job.requestId) := by
  by_cases ha : requestId ∈ s.active.keys
  · have hout : requestId ∉ s.queue.map Job.requestId := fun hq =>
      (List.nodup_append.mp hd.nodup).2.2 _ hq _ ha rfl
    have hfind : (s.queue.find? fun job => job.requestId = requestId) = none := by
      rw [List.find?_eq_none]
      intro job hj heq
      exact hout (List.mem_map.mpr ⟨job, hj, of_decide_eq_true heq⟩)
    have hsome : s.active.get? requestId ≠ none := fun hnone =>
      OrderedMap.get?_eq_none_iff.mp hnone ha
    obtain ⟨job, hjob⟩ := Option.ne_none_iff_exists'.mp hsome
    rw [getQueueStatus_active ha]
    simp [cancel, hfind, hjob, QueueStatus.state, CancelResult.state, ha, hout]
  · by_cases hq : requestId ∈ s.queue.map Job.requestId
    · obtain ⟨job, hj, rfl⟩ := List.mem_map.mp hq
      rw [getQueueStatus_queued (OrderedMap.get?_eq_none_iff.mpr ha) hj]
      have hsome : (s.queue.find? fun item => item.requestId = job.requestId) ≠ none := by
        rw [ne_eq, List.find?_eq_none]
        exact fun hall => hall job hj (by simp)
      obtain ⟨first, hfirst⟩ := Option.ne_none_iff_exists'.mp hsome
      simp [cancel, hfirst, QueueStatus.state, CancelResult.state, ha, hq]
    · have hnot : ∀ job ∈ s.queue, job.requestId ≠ requestId := fun job hj heq =>
        hq (List.mem_map.mpr ⟨job, hj, heq⟩)
      obtain ⟨hsame, hact, hque⟩ := states_of_elsewhere o clock ha hnot
      refine ⟨hsame, ?_, ?_⟩
      · rw [hsame]
        simp [hact, ha]
      · rw [hsame]
        simp only [hque, hq]

/-- The snapshot counts what the two other queries report: as many ids are reported active as it
counts, as many queued as its queue is long, each where `cancel` would find it; its limits hold,
and its counts per MFE are of at least one job each and add up to the active ones. -/
theorem snapshot_counts_statuses {as : List (Action α)} {s : State α}
    (hg : Machine.Guarded (step o clock) NotReused (init o) as)
    (h : exec o clock as = some s) :
    ((getSnapshot o s).activeCount ≤ (getSnapshot o s).maxSlots ∧
        (getSnapshot o s).queueLength ≤ (getSnapshot o s).maxQueue ∧
        (∀ e ∈ (getSnapshot o s).activeByMfe.entries, 0 < e.2 ∧ e.2 ≤ (getSnapshot o s).maxPerMfe) ∧
        ((getSnapshot o s).activeByMfe.entries.map Prod.snd).sum = (getSnapshot o s).activeCount) ∧
      ∃ active queued : List String, (queued ++ active).Nodup ∧
        active.length = (getSnapshot o s).activeCount ∧
        queued.length = (getSnapshot o s).queueLength ∧
        ∀ requestId,
          (getQueueStatus o clock s requestId).2.state = (cancel o clock s requestId).2.state ∧
          ((getQueueStatus o clock s requestId).2.state = "active" ↔ requestId ∈ active) ∧
          ((getQueueStatus o clock s requestId).2.state = "queued" ↔ requestId ∈ queued) := by
  have hd : DistinctIds s := distinctIds_of_notReused hg h
  have htold : Told o clock s := (Told.kept o clock).run Told.start_of_run h
  have hcap : SlotCap o s := (slotCap_of_notReused hg h).last h
  have hget : ∀ m n, s.perMfeActive.get? m = some n →
      (s.holders.countP fun job => job.mfeId = m) = n := by
    intro m n hm
    rw [(hcap.2.2 m).2, hm, Option.getD_some]
  refine ⟨⟨?_, htold.bounded, ?_, ?_⟩, ?_⟩
  · exact hcap.2.1.symm.trans_le hcap.1
  · rintro ⟨m, n⟩ he
    have hm : s.perMfeActive.get? m = some n := OrderedMap.get?_eq_some_iff.mpr he
    exact ⟨htold.positive m n hm, hget m n hm ▸ (hcap.2.2 m).1⟩
  · calc (s.perMfeActive.entries.map Prod.snd).sum
        = (s.holders.map Job.mfeId).length := by
          apply OrderedMap.sum_counts
          · intro m
            rw [← (hcap.2.2 m).2, List.count, List.countP_map]
            rfl
          · exact htold.positive
      _ = s.active.size := by rw [List.length_map, hcap.2.1]
  · refine ⟨s.active.keys, s.queue.map Job.requestId, hd.nodup, s.active.length_keys,
      List.length_map .., ?_⟩
    exact fun requestId => states_of_distinct hd requestId

theorem snapshot_counts_statuses_twoWaiting :
    ∃ s : State ℕ, exec { maxSlots := 1 } (fun _ => 0) twoWaiting = some s ∧
      ((getSnapshot { maxSlots := 1 } s).activeByMfe.entries.map Prod.snd).sum =
        (getSnapshot { maxSlots := 1 } s).activeCount := by
  obtain ⟨s, hs⟩ := Option.isSome_iff_exists.mp
    (show (exec { maxSlots := 1 } (fun _ => 0) twoWaiting).isSome = true by decide +kernel)
  have hg : Machine.Guarded (step { maxSlots := 1 } fun _ => 0) NotReused
      (init { maxSlots := 1 } : State ℕ) twoWaiting := by
    decide +kernel
  exact ⟨s, hs, (snapshot_counts_statuses hg hs).1.2.2.2⟩

end ServeInfer.Scheduler
