import ServeInfer.Scheduler.Course

/-!
# The phases of a job

While every job is taken off the queue as itself, each job is in one phase:
waiting in the queue, dropped from it, or started by exactly one `_run` call
that is open, answered or timed out. A phase fixes the job's flags and timers,
its call and what it has shown. Each move concerns one job and leaves the
others where they were.
-/

namespace ServeInfer.Scheduler

variable {α : Type} {o : Options} {clock : ℕ → ℤ}

/-- The `_run` calls made for a job, by their number. -/
def callsOf (job : Job) (runs : List (Run α)) (k : ℕ) : Option (Run α) :=
  runs[k]?.filter fun r => r.job = job

/-- The only call is the `k`-th. -/
def onlyCall (k : ℕ) (r : Run α) (i : ℕ) : Option (Run α) := if i = k then some r else none

/-- How often a call at this stage has called `execute`. -/
def Stage.calls : Stage α → ℕ
  | .starting => 0
  | _ => 1

/-- The job's `execute` has not been answered yet. -/
def Stage.isOpen : Stage α → Bool
  | .reacted => false
  | .finished => false
  | _ => true

structure Waiting (s : State α) (job : Job) : Prop where
  queued : job ∈ s.queue
  cell : ∃ aborted, s.cells job.id = { queueTimer := true, aborted := aborted }
  calls : callsOf job s.runs = fun _ => none
  executed : executions job.id s.trace = 0
  life : ∃ p w, life job.id s.trace = (Course.waiting p w).events job

structure Dropped (s : State α) (job : Job) : Prop where
  unqueued : job ∉ s.queue
  cell : ∃ aborted, s.cells job.id = { aborted := aborted }
  calls : callsOf job s.runs = fun _ => none
  executed : executions job.id s.trace = 0
  life : ∃ p w e, e.ran = false ∧ life job.id s.trace = (Course.ended p w e).events job

/-- The `k`-th call is the only one for its job. -/
structure Called (s : State α) (k : ℕ) (r : Run α) : Prop where
  unqueued : r.job ∉ s.queue
  calls : callsOf r.job s.runs = onlyCall k r
  executed : executions r.job.id s.trace = r.stage.calls

structure OpenCall (s : State α) (k : ℕ) (r : Run α) : Prop extends Called s k r where
  cell : ∃ aborted, s.cells r.job.id = { aborted := aborted, execTimer := some k }
  stage : r.stage.isOpen = true
  released : r.released = false
  timer : r.timer = true
  life : ∃ p w, life r.job.id s.trace = (Course.started p w).events r.job

structure Answered (s : State α) (k : ℕ) (r : Run α) : Prop extends Called s k r where
  cell : ∃ aborted, s.cells r.job.id = { aborted := aborted, execTimer := some k }
  stage : r.stage = .reacted ∧ r.released = false ∨
    r.stage = .finished ∧ r.released = true ∧ r.timer = false
  life : ∃ p w e, e.ran = true ∧ life r.job.id s.trace = (Course.ended p w e).events r.job

structure TimedOut (s : State α) (k : ℕ) (r : Run α) : Prop extends Called s k r where
  cell : s.cells r.job.id = { aborted := true, execTimer := some k, execTimedOut := true }
  stage : r.stage ≠ .starting
  released : r.released = true
  timer : r.timer = false
  life : ∃ p w ranMs at',
    life r.job.id s.trace = (Course.ended p w (.execTimeout ranMs at')).events r.job

/-- A started job is in one of three phases. -/
inductive Started (s : State α) (k : ℕ) (r : Run α) : Prop
  | isOpen (h : OpenCall s k r)
  | answered (h : Answered s k r)
  | timedOut (h : TimedOut s k r)

inductive Phase (s : State α) (job : Job) : Prop
  | waiting (h : Waiting s job)
  | dropped (h : Dropped s job)
  | started (k : ℕ) (r : Run α) (hjob : r.job = job) (h : Started s k r)

/-- The move from `s` to `t` concerns this job only. -/
structure Concerns (job : Job) (s t : State α) : Prop where
  queue : ∀ j, j ≠ job → (j ∈ t.queue ↔ j ∈ s.queue)
  calls : ∀ j, j ≠ job → callsOf j t.runs = callsOf j s.runs
  cells : ∀ id, id ≠ job.id → t.cells id = s.cells id
  executed : ∀ id, id ≠ job.id → executions id t.trace = executions id s.trace
  life : ∀ id, id ≠ job.id → life id t.trace = life id s.trace

section Calls

theorem callsOf_eq_none_of_notMem {job : Job} {runs : List (Run α)}
    (h : job ∉ runs.map Run.job) : callsOf job runs = fun _ => none := by
  funext k
  unfold callsOf
  cases hr : runs[k]? with
  | none => rfl
  | some r =>
      have hne : r.job ≠ job := by
        intro heq
        exact h (List.mem_map.mpr ⟨r, List.mem_of_getElem? hr, heq⟩)
      simp [Option.filter, hne]

theorem notMem_of_callsOf_eq_none {job : Job} {runs : List (Run α)}
    (h : callsOf job runs = fun _ => none) : job ∉ runs.map Run.job := by
  intro hmem
  obtain ⟨r, hr, hjob⟩ := List.mem_map.mp hmem
  obtain ⟨k, hk⟩ := List.mem_iff_getElem?.mp hr
  have hcall := congrFun h k
  simp [callsOf, hk, Option.filter, hjob] at hcall

theorem callsOf_append_self {job : Job} {runs : List (Run α)} {r : Run α} (hr : r.job = job)
    (h : callsOf job runs = fun _ => none) :
    callsOf job (runs ++ [r]) = onlyCall runs.length r := by
  funext k
  have hk := congrFun h k
  unfold callsOf at hk ⊢
  unfold onlyCall
  rcases Nat.lt_trichotomy k runs.length with hlt | heq | hgt
  · rw [List.getElem?_append_left hlt, hk, if_neg (Nat.ne_of_lt hlt)]
  · subst heq
    simp [Option.filter, hr]
  · have hlen : (runs ++ [r]).length ≤ k := by simp; omega
    rw [List.getElem?_eq_none hlen, if_neg (Nat.ne_of_gt hgt)]
    rfl

theorem callsOf_append_of_ne {job : Job} {runs : List (Run α)} {r : Run α} (hr : r.job ≠ job) :
    callsOf job (runs ++ [r]) = callsOf job runs := by
  funext k
  unfold callsOf
  rcases Nat.lt_trichotomy k runs.length with hlt | heq | hgt
  · rw [List.getElem?_append_left hlt]
  · subst heq
    simp [Option.filter, hr]
  · have hlen : (runs ++ [r]).length ≤ k := by simp; omega
    rw [List.getElem?_eq_none hlen, List.getElem?_eq_none (by omega)]

theorem callsOf_modify_self {job : Job} {runs : List (Run α)} {k : ℕ} {r : Run α}
    (f : Run α → Run α) (hf : ∀ r, (f r).job = r.job) (h : callsOf job runs = onlyCall k r)
    (hr : r.job = job) :
    callsOf job (runs.modify k f) = onlyCall k (f r) := by
  funext i
  have hi := congrFun h i
  unfold callsOf at hi ⊢
  unfold onlyCall at hi ⊢
  rw [List.getElem?_modify]
  by_cases hik : i = k
  · subst hik
    rw [if_pos rfl, Option.filter_eq_some_iff] at hi
    simp [hi.1, Option.filter, hf, hr]
  · rw [if_neg hik] at hi ⊢
    simpa [Ne.symm hik] using hi

theorem callsOf_modify_of_ne {job : Job} {runs : List (Run α)} {k : ℕ} {r : Run α}
    {f : Run α → Run α} (hf : ∀ r, (f r).job = r.job) (hr : runs[k]? = some r)
    (hne : r.job ≠ job) : callsOf job (runs.modify k f) = callsOf job runs := by
  funext i
  unfold callsOf
  rw [List.getElem?_modify]
  by_cases hik : k = i
  · subst hik
    simp [hr, Option.filter, hf, hne]
  · cases runs[i]? <;> simp [hik]

end Calls

theorem Started.called {s : State α} {k : ℕ} {r : Run α} (h : Started s k r) : Called s k r := by
  cases h with
  | isOpen h => exact h.toCalled
  | answered h => exact h.toCalled
  | timedOut h => exact h.toCalled

/-- A start disarms the queue timer for good. -/
theorem Started.disarmed {s : State α} {k : ℕ} {r : Run α} (h : Started s k r) :
    (s.cells r.job.id).queueTimer = false := by
  cases h with
  | isOpen h =>
      obtain ⟨aborted, hcell⟩ := h.cell
      rw [hcell]
  | answered h =>
      obtain ⟨aborted, hcell⟩ := h.cell
      rw [hcell]
  | timedOut h => rw [h.cell]

/-- The job holds the timer of its only call. -/
theorem Started.execTimer {s : State α} {k : ℕ} {r : Run α} (h : Started s k r) :
    (s.cells r.job.id).execTimer = some k := by
  cases h with
  | isOpen h =>
      obtain ⟨aborted, hcell⟩ := h.cell
      rw [hcell]
  | answered h =>
      obtain ⟨aborted, hcell⟩ := h.cell
      rw [hcell]
  | timedOut h => rw [h.cell]

namespace Phase

variable {s t : State α}

/-- A phase depends on the job's place, flags, calls and history only. -/
theorem of_same {job : Job} (h : Phase s job) (hq : job ∈ t.queue ↔ job ∈ s.queue)
    (hcalls : callsOf job t.runs = callsOf job s.runs) (hcell : t.cells job.id = s.cells job.id)
    (hexec : executions job.id t.trace = executions job.id s.trace)
    (hlife : life job.id t.trace = life job.id s.trace) : Phase t job := by
  cases h with
  | waiting h =>
      exact .waiting ⟨hq.mpr h.queued, hcell ▸ h.cell, hcalls.trans h.calls,
        hexec.trans h.executed, hlife ▸ h.life⟩
  | dropped h =>
      exact .dropped ⟨fun hin => h.unqueued (hq.mp hin), hcell ▸ h.cell, hcalls.trans h.calls,
        hexec.trans h.executed, hlife ▸ h.life⟩
  | started k r hjob h =>
      subst hjob
      have hcalled : Called s k r → Called t k r := fun hk =>
        ⟨fun hin => hk.unqueued (hq.mp hin), hcalls.trans hk.calls, hexec.trans hk.executed⟩
      cases h with
      | isOpen h =>
          exact .started k r rfl (.isOpen { hcalled h.toCalled with
            cell := hcell ▸ h.cell, stage := h.stage, released := h.released, timer := h.timer,
            life := hlife ▸ h.life })
      | answered h =>
          exact .started k r rfl (.answered { hcalled h.toCalled with
            cell := hcell ▸ h.cell, stage := h.stage, life := hlife ▸ h.life })
      | timedOut h =>
          exact .started k r rfl (.timedOut { hcalled h.toCalled with
            cell := hcell ▸ h.cell, stage := h.stage, released := h.released, timer := h.timer,
            life := hlife ▸ h.life })

/-- A move that concerns another job leaves the phase as it was. -/
theorem frame {job other : Job} (h : Phase s job) (hc : Concerns other s t) (hne : job ≠ other)
    (hid : job.id ≠ other.id) : Phase t job :=
  h.of_same (hc.queue job hne) (hc.calls job hne) (hc.cells job.id hid) (hc.executed job.id hid)
    (hc.life job.id hid)

/-- Only a waiting job is queued. -/
theorem waiting_of_mem {job : Job} (h : Phase s job) (hq : job ∈ s.queue) : Waiting s job := by
  cases h with
  | waiting h => exact h
  | dropped h => exact absurd hq h.unqueued
  | started k r hjob h =>
      subst hjob
      exact absurd hq h.called.unqueued

/-- Only a waiting job has its queue timer armed. -/
theorem waiting_of_armed {job : Job} (h : Phase s job)
    (harmed : (s.cells job.id).queueTimer = true) : Waiting s job := by
  cases h with
  | waiting h => exact h
  | dropped h =>
      obtain ⟨aborted, hcell⟩ := h.cell
      rw [hcell] at harmed
      cases harmed
  | started k r hjob h =>
      subst hjob
      rw [h.disarmed] at harmed
      cases harmed

/-- A job with a `_run` call is in the phase of that call. -/
theorem started_of_run {k : ℕ} {r : Run α} (h : Phase s r.job) (hr : s.runs[k]? = some r) :
    Started s k r := by
  have hcall : callsOf r.job s.runs k = some r := by simp [callsOf, hr, Option.filter]
  cases h with
  | waiting h =>
      rw [h.calls] at hcall
      cases hcall
  | dropped h =>
      rw [h.calls] at hcall
      cases hcall
  | started k' r' hjob h =>
      have hcalls : callsOf r.job s.runs = onlyCall k' r' := hjob ▸ h.called.calls
      rw [hcalls, onlyCall] at hcall
      split at hcall
      · rename_i hk
        rw [Option.some.injEq] at hcall
        subst hk hcall
        exact h
      · cases hcall

/-- A phase gives the job's course. -/
theorem course {job : Job} (h : Phase s job) :
    ∃ c : Course α, life job.id s.trace = c.events job := by
  cases h with
  | waiting h =>
      obtain ⟨p, w, hlife⟩ := h.life
      exact ⟨_, hlife⟩
  | dropped h =>
      obtain ⟨p, w, e, -, hlife⟩ := h.life
      exact ⟨_, hlife⟩
  | started k r hjob h =>
      subst hjob
      cases h with
      | isOpen h =>
          obtain ⟨p, w, hlife⟩ := h.life
          exact ⟨_, hlife⟩
      | answered h =>
          obtain ⟨p, w, e, -, hlife⟩ := h.life
          exact ⟨_, hlife⟩
      | timedOut h =>
          obtain ⟨p, w, ranMs, at', hlife⟩ := h.life
          exact ⟨_, hlife⟩

end Phase

end ServeInfer.Scheduler
