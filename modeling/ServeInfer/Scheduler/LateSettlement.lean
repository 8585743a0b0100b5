import ServeInfer.Scheduler.NoJobLost
import ServeInfer.Scheduler.SlotCap

/-!
# Late settlements

A job that its execution timer has rejected may still be answered. The flag on
the job silences the answer, and the flag of the call keeps its last reaction
from giving a slot back twice. The second flag belongs to the call, so it speaks
for the job only while the job has one call.
-/

namespace ServeInfer.Scheduler

variable {α : Type} {o : Options} {clock : ℕ → ℤ}

/-- The queue, the maps and the running average are as they were. -/
structure SameTables (s t : State α) : Prop where
  tables : t.toTables = s.toTables
  done : t.done = s.done
  avgDurationMs : t.avgDurationMs = s.avgDurationMs

/-- The steps by which the `execute` of the `k`-th call is answered after all. -/
inductive LateStep (k : ℕ) : Action α → Prop
  | settleExecute (result : Except (Thrown α) α) : LateStep k (.settleExecute k result)
  | react : LateStep k (.react k)
  | finalize : LateStep k (.finalize k)

/-- Whatever happens next, no step of the late answer touches the tables. -/
def Inert (o : Options) (clock : ℕ → ℤ) (s : State α) (k : ℕ) : Prop :=
  ∀ bs t, Machine.exec (step o clock) s bs = some t →
    ∀ a t', LateStep k a → step o clock t a = some t' → SameTables t t'

/-- The job's promise was rejected by its execution timer. -/
def RejectedByExecTimer (s : State α) (job : Job) : Prop :=
  ∃ ranMs, Event.settle job.id (.rejected (.scheduler (.execTimeout job.requestId ranMs))) ∈
    s.trace

/-- What a later state keeps of an earlier one: flags that are up stay up, and a call stays the
call of its job and stays released. -/
structure Later (s t : State α) : Prop where
  jobs : s.jobs.length ≤ t.jobs.length
  flags : ∀ id, id < s.jobs.length → (s.cells id).execTimedOut = true →
    (t.cells id).execTimedOut = true
  calls : ∀ (k : ℕ) (r : Run α), s.runs[k]? = some r →
    ∃ r', t.runs[k]? = some r' ∧ r'.job = r.job ∧ (r.released = true → r'.released = true)

namespace Later

variable {s t u : State α}

theorem refl (s : State α) : Later s s where
  jobs := le_rfl
  flags _ _ h := h
  calls _ r hr := ⟨r, hr, rfl, id⟩

theorem trans (h : Later s t) (h' : Later t u) : Later s u where
  jobs := h.jobs.trans h'.jobs
  flags id hid hup := h'.flags id (hid.trans_le h.jobs) (h.flags id hid hup)
  calls k r hr := by
    obtain ⟨r', hr', hjob, hrel⟩ := h.calls k r hr
    obtain ⟨r'', hr'', hjob', hrel'⟩ := h'.calls k r' hr'
    exact ⟨r'', hr'', hjob'.trans hjob, fun hup => hrel' (hrel hup)⟩

/-- The cells and the calls are all that matters. -/
theorem of_eq (hj : t.jobs = s.jobs)
    (hc : ∀ id, (s.cells id).execTimedOut = true → (t.cells id).execTimedOut = true)
    (hr : t.runs = s.runs) : Later s t where
  jobs := (congrArg List.length hj).ge
  flags id _ := hc id
  calls k r hk := ⟨r, by rw [hr, hk], rfl, id⟩

theorem modify (runs : List (Run α)) (i : ℕ) {f : Run α → Run α} (hjob : ∀ r, (f r).job = r.job)
    (hrel : ∀ r, r.released = true → (f r).released = true) (k : ℕ) (r : Run α)
    (hr : runs[k]? = some r) :
    ∃ r', (runs.modify i f)[k]? = some r' ∧ r'.job = r.job ∧
      (r.released = true → r'.released = true) := by
  rw [List.getElem?_modify, hr]
  by_cases hik : i = k
  · exact ⟨f r, by simp [hik], hjob r, hrel r⟩
  · exact ⟨r, by simp [hik], rfl, id⟩

theorem clearedRuns (runs : List (Run α)) (handle : Option ℕ) (k : ℕ) (r : Run α)
    (hr : runs[k]? = some r) :
    ∃ r', (Scheduler.clearedRuns runs handle)[k]? = some r' ∧ r'.job = r.job ∧
      (r.released = true → r'.released = true) := by
  cases handle with
  | none => exact ⟨r, hr, rfl, id⟩
  | some i => exact modify runs i (by simp) (by simp) k r hr

theorem setRun (s : State α) (i : ℕ) {f : Run α → Run α} (hjob : ∀ r, (f r).job = r.job)
    (hrel : ∀ r, r.released = true → (f r).released = true) : Later s (s.setRun i f) where
  jobs := le_rfl
  flags _ _ h := h
  calls k r hr := modify s.runs i hjob hrel k r hr

theorem update_flag {cells : ℕ → Cell} {i : ℕ} {cell : Cell}
    (h : (cells i).execTimedOut = true → cell.execTimedOut = true) (id : ℕ)
    (hup : (cells id).execTimedOut = true) :
    (Function.update cells i cell id).execTimedOut = true := by
  by_cases hid : id = i
  · subst hid
    simpa using h hup
  · simpa [hid] using hup

theorem accept (s : State α) (req : Request) : Later s (accept o clock s req) := by
  rw [accept_eq]
  refine ⟨by simp, ?_, fun k r hr => ⟨r, hr, rfl, id⟩⟩
  intro id hid hup
  rw [← hup]
  exact congrArg Cell.execTimedOut (Function.update_of_ne (Nat.ne_of_lt hid) _ _)

theorem start (s : State α) (job : Job) : Later s (startPicked clock s.tick job) := by
  rw [startPicked_eq]
  refine ⟨le_rfl, fun id _ hup => update_flag (by exact fun h => h) id hup, ?_⟩
  intro k r hr
  refine ⟨r, ?_, rfl, id⟩
  have hlt : k < s.runs.length := (List.getElem?_eq_some_iff.mp hr).1
  rw [State.tick, List.getElem?_append_left hlt, hr]

theorem timedOut (s : State α) (k : ℕ) (r : Run α) : Later s (timeOut o clock s k r) := by
  rw [timeOut_eq]
  exact ⟨le_rfl, fun id _ hup => update_flag (fun _ => rfl) id hup,
    modify s.runs k (by simp) (by simp)⟩

theorem free (s : State α) (k : ℕ) (r : Run α) : Later s (freeSlot clock s k r) := by
  rw [freeSlot_eq]
  refine ⟨le_rfl, fun _ _ hup => hup, ?_⟩
  intro i r' hr
  obtain ⟨r₁, hr₁, hjob₁, hrel₁⟩ :=
    modify s.runs k (f := fun r => { r with released := true }) (by simp) (by simp) i r' hr
  obtain ⟨r₂, hr₂, hjob₂, hrel₂⟩ := clearedRuns _ (s.cells r.job.id).execTimer i r₁ hr₁
  exact ⟨r₂, hr₂, hjob₂.trans hjob₁, fun hup => hrel₂ (hrel₁ hup)⟩

variable (o clock) in
/-- Every move leads to a later state. -/
theorem kept (s : State α) : Kept o clock (Later s) where
  stay _ h := h
  tick _ h := h.trans (of_eq rfl (fun _ h => h) rfl)
  start job _ h _ _ := h.trans (start _ job)
  accept req _ h _ := h.trans (accept _ req)
  disarm _ job _ h _ _ _ _ := h.trans (of_eq rfl (update_flag fun h => h) rfl)
  expire _ job _ h _ _ _ _ := by
    rw [expireQueued_eq]
    exact h.trans (of_eq rfl (update_flag fun h => h) rfl)
  cancelQueued _ job _ h _ := by
    rw [cancelQueued_eq]
    exact h.trans ⟨le_rfl, fun id _ hup => update_flag (by exact fun h => h) id hup, clearedRuns _ _⟩
  abort _ job _ h _ := h.trans (of_eq rfl (update_flag fun h => h) rfl)
  timeOut k r _ h _ _ _ _ := h.trans (timedOut _ k r)
  timeOutFree k r _ h _ _ _ _ := h.trans ((timedOut _ k r).trans (free _ k r))
  call k _ _ h _ _ := h.trans ⟨le_rfl, fun _ _ hup => hup, modify _ k (by simp) (by simp)⟩
  settle k _ _ _ h _ _ := h.trans (setRun _ k (by simp) (by simp))
  react k r result _ h _ _ ht := by
    rw [react_eq o clock ht]
    exact h.trans ⟨le_rfl, fun _ _ hup => hup, modify _ k (by simp) (by simp)⟩
  reactLate k _ _ _ h _ _ _ := h.trans (setRun _ k (by simp) (by simp))
  finish k _ _ h _ _ _ := h.trans (setRun _ k (by simp) (by simp))
  finishFree k r _ h _ _ _ := h.trans ((setRun _ k (by simp) (by simp)).trans (free _ k r))

end Later

/-- Whom the execution timer has rejected carries the flag. -/
def Flagged (s : State α) : Prop :=
  ∀ id requestId ranMs,
    Event.settle id (.rejected (.scheduler (.execTimeout requestId ranMs))) ∈ s.trace →
      id < s.jobs.length ∧ (s.cells id).execTimedOut = true

theorem settle_notMem_notified (job : Job) (st : Status) (id : ℕ) (out : Settlement α) :
    Event.settle id out ∉ notified job st := by
  unfold notified
  split <;> simp

namespace Flagged

variable {s t : State α}

/-- A move whose new events reject nobody for running too long. -/
theorem of_later (h : Flagged s) (hl : Later s t)
    (hnew : ∀ id requestId ranMs,
      Event.settle id (.rejected (.scheduler (.execTimeout requestId ranMs))) ∈ t.trace →
        Event.settle id (.rejected (.scheduler (.execTimeout requestId ranMs))) ∈ s.trace) :
    Flagged t := by
  intro id requestId ranMs hmem
  obtain ⟨hlt, hup⟩ := h id requestId ranMs (hnew id requestId ranMs hmem)
  exact ⟨hlt.trans_le hl.jobs, hl.flags id hlt hup⟩

theorem timedOut (hs : Shape s) (h : Flagged s) {k : ℕ} {r : Run α} (hr : s.runs[k]? = some r) :
    Flagged (timeOut o clock s k r) := by
  have hl : Later s (timeOut o clock s k r) := Later.timedOut s k r
  intro id requestId ranMs hmem
  have hcases : Event.settle id (.rejected (.scheduler (.execTimeout requestId ranMs))) ∈ s.trace ∨
      id = r.job.id := by
    rw [timeOut_eq] at hmem
    simp [settle_notMem_notified] at hmem
    tauto
  rcases hcases with hold | rfl
  · obtain ⟨hlt, hup⟩ := h id requestId ranMs hold
    exact ⟨hlt.trans_le hl.jobs, hl.flags id hlt hup⟩
  · refine ⟨?_, by simp [timeOut_eq]⟩
    simpa [timeOut_eq] using hs.id_lt (hs.job_mem hr)

/-- What a reaction settles is never an execution timeout. -/
theorem answer_ne (job : Job) (now : ℤ) (result : Except (Thrown α) α) (requestId : String)
    (ranMs : ℤ) :
    (answer s job now result).1 ≠ .rejected (.scheduler (.execTimeout requestId ranMs)) := by
  cases result with
  | ok value => simp [answer]
  | error err =>
      cases ha : (s.cells job.id).aborted with
      | true => cases err <;> simp [answer, ha, abortReason]
      | false => simp [answer, ha]

variable (o clock) in
theorem kept : KeptUnder o clock Shape (Flagged (α := α)) where
  stay _ h := h
  tick _ h := h
  start job _ h _ _ := by
    refine h.of_later (Later.start _ job) ?_
    simp [startPicked_eq, State.tick, settle_notMem_notified]
  accept req _ h _ := by
    refine h.of_later (Later.accept _ req) ?_
    simp [accept_eq, settle_notMem_notified]
  disarm _ job _ h _ _ _ _ :=
    h.of_later (Later.of_eq rfl (Later.update_flag fun h => h) rfl) fun _ _ _ hmem => hmem
  expire id job hs h hj harmed hidle hex := by
    refine h.of_later ((Later.kept o clock _).expire id job trivial (Later.refl _) hj harmed hidle hex) ?_
    simp [expireQueued_eq, clearQueueTimer, State.setCell, settle_notMem_notified]
  cancelQueued requestId job _ h hf := by
    refine h.of_later ((Later.kept o clock _).cancelQueued requestId job trivial (Later.refl _) hf) ?_
    simp [cancelQueued_eq, settle_notMem_notified]
  abort requestId job _ h hg :=
    h.of_later ((Later.kept o clock _).abort requestId job trivial (Later.refl _) hg)
      fun _ _ _ hmem => hmem
  timeOut k r hs h hr _ _ _ := h.timedOut hs hr
  timeOutFree k r hs h hr _ _ _ := by
    have htimedOut : Flagged (timeOut o clock _ k r) := h.timedOut hs hr
    refine htimedOut.of_later (Later.free _ k r) ?_
    simp [freeSlot_eq]
  call k r _ h hr hst := by
    refine h.of_later ((Later.kept o clock _).call k r trivial (Later.refl _) hr hst) ?_
    simp [State.log, State.setRun]
  settle k _ _ _ h _ _ :=
    h.of_later (Later.setRun _ k (by simp) (by simp)) fun _ _ _ hmem => hmem
  react k r result _ h hr hst ht := by
    refine h.of_later ((Later.kept o clock _).react k r result trivial (Later.refl _) hr hst ht) ?_
    intro id requestId ranMs hmem
    rw [react_eq o clock ht] at hmem
    simp only [List.mem_append, List.mem_cons, Event.settle.injEq, reduceCtorEq, List.not_mem_nil,
      or_false] at hmem
    exact hmem.resolve_right fun heq => answer_ne _ _ _ _ _ heq.2.symm
  reactLate k _ _ _ h _ _ _ :=
    h.of_later (Later.setRun _ k (by simp) (by simp)) fun _ _ _ hmem => hmem
  finish k _ _ h _ _ _ :=
    h.of_later (Later.setRun _ k (by simp) (by simp)) fun _ _ _ hmem => hmem
  finishFree k r _ h _ _ _ := by
    refine h.of_later ((Later.setRun _ k (by simp) (by simp)).trans (Later.free _ k r)) ?_
    simp [freeSlot_eq, State.setRun]

theorem start_of_run (o : Options) : Flagged (init o : State α) := by
  intro id requestId ranMs hmem
  simp [init] at hmem

end Flagged

theorem flagged_of_exec {as : List (Action α)} {s : State α} (h : exec o clock as = some s) :
    Flagged s :=
  (Flagged.kept o clock).runUnder (Shape.kept o clock) (Shape.start_of_run o)
    (Flagged.start_of_run o) h

/-- A call that has given its slot back, of a job that carries the flag, answers unnoticed. -/
theorem sameTables_of_lateStep {s s' : State α} {k : ℕ} {r : Run α} (hr : s.runs[k]? = some r)
    (hrel : r.released = true) (hup : (s.cells r.job.id).execTimedOut = true) {a : Action α}
    (ha : LateStep k a) (h : step o clock s a = some s') : SameTables s s' := by
  cases ha with
  | settleExecute result =>
      simp only [step] at h
      split at h
      · rw [Option.some.injEq] at h
        exact h ▸ ⟨rfl, rfl, rfl⟩
      · cases h
  | react =>
      simp only [step, hr] at h
      split at h
      · rw [react_eq_of_timedOut o clock hup, Option.some.injEq] at h
        exact h ▸ ⟨rfl, rfl, rfl⟩
      · cases h
  | finalize =>
      simp only [step] at h
      split at h
      · rename_i hrun
        rw [hr, Option.some.injEq] at hrun
        subst hrun
        simp only [releaseSlot, getElem?_setStage hr, Option.some.injEq] at h
        rw [if_pos hrel] at h
        exact h ▸ ⟨rfl, rfl, rfl⟩
      · cases h

/-- A start takes a job off the queue. -/
theorem length_queue_start {s : State α} {job : Job} (hjob : job ∈ s.queue) :
    (startPicked clock s.tick job).queue.length < s.queue.length := by
  rw [startPicked_eq]
  have hlen : (unqueue s.queue job.requestId).length + 1 = s.queue.length := by
    unfold unqueue
    rw [List.length_eraseP_of_mem hjob (by simp)]
    have hpos := List.length_pos_of_mem hjob
    omega
  simp only [State.tick]
  omega

/-- The rounds of `_schedule` either start nothing or shorten the queue. -/
theorem scheduleLoop_queue (fuel : ℕ) (s : State α) :
    (scheduleLoop o clock fuel s).toTables = s.toTables ∨
      (scheduleLoop o clock fuel s).queue.length < s.queue.length := by
  induction fuel generalizing s with
  | zero => exact .inl rfl
  | succ fuel ih =>
      unfold scheduleLoop
      split
      · split
        · exact .inl rfl
        · rename_i job hpick
          right
          have hshort : (startPicked clock s.tick job).queue.length < s.queue.length :=
            length_queue_start (pickNextJob_spec hpick).1
          rcases ih (startPicked clock s.tick job) with hsame | hless
          · have hqueue := congrArg (fun t : Tables => t.queue.length) hsame
            omega
          · omega
      · exact .inl rfl

variable (o clock) in
theorem schedule_queue (s : State α) :
    (schedule o clock s).toTables = s.toTables ∨
      (schedule o clock s).queue.length < s.queue.length :=
  scheduleLoop_queue _ s

/-- A call that still holds its slot gives it back once more, and the tables show it. -/
theorem not_inert_of_held {s : State α} (hc : Counted o s) {k : ℕ} {r : Run α}
    (hr : s.runs[k]? = some r) (hst : r.stage = .running) (hheld : r.released = false)
    (hup : (s.cells r.job.id).execTimedOut = true) : ¬ Inert o clock s k := by
  intro hinert
  let err : Except (Thrown α) α := .error (.error "")
  let s₁ := s.setRun k fun r => { r with stage := .settled err }
  let s₂ := s₁.setRun k fun r => { r with stage := .reacted }
  let s₃ := s₂.setRun k fun r => { r with stage := .finished }
  obtain ⟨job, startedAt, released, timer, stage⟩ := r
  simp only at hst hheld
  subst hst hheld
  have hr₁ : s₁.runs[k]? = some ⟨job, startedAt, false, timer, .settled err⟩ := getElem?_setStage hr
  have hr₂ : s₂.runs[k]? = some ⟨job, startedAt, false, timer, .reacted⟩ := getElem?_setStage hr₁
  have hr₃ : s₃.runs[k]? = some ⟨job, startedAt, false, timer, .finished⟩ := getElem?_setStage hr₂
  have hanswer : step o clock s (.settleExecute k err) = some s₁ := by
    simp only [step, hr]
    rfl
  have hreact : step o clock s₁ (.react k) = some s₂ := by
    have hup₁ : (s₁.cells job.id).execTimedOut = true := hup
    simp only [step, hr₁]
    rw [react_eq_of_timedOut o clock hup₁]
  have hfinal : step o clock s₂ (.finalize k) =
      some (schedule o clock (freeSlot clock s₃ k ⟨job, startedAt, false, timer, .finished⟩)) := by
    have hrel : releaseSlot o clock s₃ k =
        schedule o clock (freeSlot clock s₃ k ⟨job, startedAt, false, timer, .finished⟩) := by
      simp [releaseSlot, hr₃]
    rw [← hrel]
    simp only [step, hr₂]
    rfl
  have hbefore : Machine.exec (step o clock) s [.settleExecute k err, .react k] = some s₂ := by
    simp [hanswer, hreact]
  have hsame := hinert _ s₂ hbefore (.finalize k) _ .finalize hfinal
  -- The count of the MFE is at least one before, and one less if nothing is started after.
  have hc₃ : Counted o s₃ :=
    ((hc.setStage k _).setStage k _).setStage k _
  have hpos : 0 < s₃.holders.countP fun j => j.mfeId = job.mfeId := by
    rw [List.countP_pos_iff]
    refine ⟨job, ?_, by simp⟩
    refine List.mem_map.mpr ⟨⟨job, startedAt, false, timer, .finished⟩, ?_, rfl⟩
    exact List.mem_filter.mpr ⟨List.mem_of_getElem? hr₃, rfl⟩
  rw [hc₃.counts job.mfeId] at hpos
  let freed := freeSlot clock s₃ k ⟨job, startedAt, false, timer, .finished⟩
  have hqueue : freed.queue = s₂.queue := by
    simp only [freed, freeSlot_eq]
    rfl
  rcases schedule_queue o clock freed with hquiet | hshort
  · have hcount := congrArg (fun t : Tables => (t.perMfeActive.get? job.mfeId).getD 0)
      (hquiet.symm.trans hsame.tables)
    simp only [freed, freeSlot_eq, get?_lowered, if_true] at hcount
    have hsame₃ : s₂.perMfeActive = s₃.perMfeActive := rfl
    rw [hsame₃] at hcount
    omega
  · have hlen := congrArg (fun t : Tables => t.queue.length) hsame.tables
    rw [hqueue] at hshort
    exact absurd hlen (Nat.ne_of_lt hshort)

/-- The late answer of a call is inert, whatever else happens meanwhile, exactly when the call
has already given its slot back. -/
theorem late_settlement_inert_iff {as : List (Action α)} {s : State α}
    (h : exec o clock as = some s) {k : ℕ} {r : Run α} (hr : s.runs[k]? = some r)
    (hst : r.stage = .running) (hrej : RejectedByExecTimer s r.job) :
    Inert o clock s k ↔ r.released = true := by
  obtain ⟨ranMs, hmem⟩ := hrej
  have hup : (s.cells r.job.id).execTimedOut = true := (flagged_of_exec h _ _ _ hmem).2
  have hshape : Shape s := shape_of_exec h
  constructor
  · intro hinert
    by_contra hheld
    have hcounted : Counted o s := (Counted.kept o clock).run (Counted.start_of_run o) h
    exact not_inert_of_held hcounted hr hst (by simpa using hheld) hup hinert
  · intro hrel bs t hbs a t' ha ht
    have hlater : Later s t := Machine.exec_invariant (Later.refl s)
      (fun _ _ _ hl hs => (Later.kept o clock s).step kept_true trivial hl hs) hbs
    obtain ⟨r', hr', hjob, hrel'⟩ := hlater.calls k r hr
    have hup' : (t.cells r'.job.id).execTimedOut = true := by
      rw [hjob]
      exact hlater.flags _ (hshape.id_lt (hshape.job_mem hr)) hup
    exact sameTables_of_lateStep hr' (hrel' hrel) hup' ha ht

/-- A job times out while it runs, having been started once. -/
def timesOut : List (Action ℕ) :=
  [.enqueue { requestId := "x", mfeId := "m" }, .callExecute 0, .execTimer 0]

theorem late_settlement_timesOut :
    ∃ (s : State ℕ) (r : Run ℕ), exec {} (fun _ => 0) timesOut = some s ∧ s.runs[0]? = some r ∧
      (Inert {} (fun _ => 0) s 0 ↔ r.released = true) := by
  let r : Run ℕ := ⟨⟨0, "x", "m", .normal, true, 0⟩, 0, true, false, .running⟩
  have hr : ((exec {} (fun _ => 0) timesOut).get (by decide +kernel)).runs[0]? = some r := by
    decide +kernel
  exact ⟨_, r, (Option.some_get _).symm, hr,
    late_settlement_inert_iff (Option.some_get _).symm hr rfl ⟨0, by decide +kernel⟩⟩

/-- A job that is started while another of its id is spliced out times out, is started again from
the queue, and is then answered. -/
def startedTwice : List (Action ℕ) :=
  sharedQueuedId ++ [.callExecute 1, .execTimer 1, .callExecute 2]

/-- The answer to the second start frees the slot once more. -/
theorem late_settlement_not_inert :
    ¬ ∀ (o : Options) (clock : ℕ → ℤ) (as : List (Action ℕ)) (s : State ℕ) (k : ℕ) (r : Run ℕ),
      exec o clock as = some s → s.runs[k]? = some r → r.stage = .running →
        RejectedByExecTimer s r.job → Inert o clock s k := by
  intro hall
  let r : Run ℕ := ⟨⟨2, "x", "m", .high, true, 0⟩, 0, false, true, .running⟩
  have hr : ((exec { maxSlots := 1 } (fun _ => 0) startedTwice).get
      (by decide +kernel)).runs[2]? = some r := by
    decide +kernel
  have hinert := hall { maxSlots := 1 } (fun _ => 0) startedTwice _ 2 r (Option.some_get _).symm hr
    rfl ⟨0, by decide +kernel⟩
  -- The slot is held before the last step and free after it.
  have hheld : ((Machine.exec (step { maxSlots := 1 } fun _ => 0)
      ((exec { maxSlots := 1 } (fun _ => 0) startedTwice).get (by decide +kernel))
      [.settleExecute 2 (.ok 9), .react 2]).map fun t => (t.active.size,
        (step { maxSlots := 1 } (fun _ => 0) t (.finalize 2)).map fun t' => t'.active.size)) =
      some (1, some 0) := by
    decide +kernel
  obtain ⟨t, ht, hsizes⟩ := Option.map_eq_some_iff.mp hheld
  rw [Prod.mk.injEq] at hsizes
  obtain ⟨t', ht', hsize'⟩ := Option.map_eq_some_iff.mp hsizes.2
  have hsame := (hinert _ t ht (.finalize 2) t' .finalize ht').tables
  have hsize : t'.active.size = t.active.size := congrArg (fun u : Tables => u.active.size) hsame
  rw [hsize', hsizes.1] at hsize
  exact absurd hsize (by decide)

end ServeInfer.Scheduler
