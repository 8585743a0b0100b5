import ServeInfer.Scheduler.Shape

/-!
# Reading the history

The history is one list of events. Here it is read by kind: which jobs were
picked or expired and from which tables, how often a job was executed, and what
one job's own sequence of notifications, settlements and records is.
-/

namespace ServeInfer.Scheduler

variable {α : Type}

namespace Event

/-- The job a start takes, with the tables it was taken from. -/
def pick? : Event α → Option (Job × Tables)
  | picked job before => some (job, before)
  | _ => none

/-- The job whose queue timer removes a queued job, with the tables it fires on. -/
def expiry? : Event α → Option (Job × Tables)
  | expiring job before => some (job, before)
  | _ => none

/-- A notification, settlement or record made for the job of this number. -/
def about (id : ℕ) : Event α → Bool
  | status job _ => job = id
  | settle job _ => job = id
  | record job _ => job = id
  | _ => false

def executes (id : ℕ) : Event α → Bool
  | execute job => job = id
  | _ => false

def settles (id : ℕ) : Event α → Bool
  | settle job _ => job = id
  | _ => false

end Event

def picks (l : List (Event α)) : List (Job × Tables) := l.filterMap Event.pick?

def expiries (l : List (Event α)) : List (Job × Tables) := l.filterMap Event.expiry?

/-- What was told, settled and recorded for one job, in order. -/
def life (id : ℕ) (l : List (Event α)) : List (Event α) := l.filter (Event.about id)

/-- How often `execute` was called for the job. -/
def executions (id : ℕ) (l : List (Event α)) : ℕ := l.countP (Event.executes id)

/-- How often the job's `resolve` or `reject` was called. -/
def settlements (id : ℕ) (l : List (Event α)) : ℕ := l.countP (Event.settles id)

@[simp] theorem picks_nil : picks ([] : List (Event α)) = [] := rfl

@[simp] theorem picks_append (l m : List (Event α)) : picks (l ++ m) = picks l ++ picks m :=
  List.filterMap_append

@[simp] theorem picks_cons_picked (job : Job) (before : Tables) (l : List (Event α)) :
    picks (.picked job before :: l) = (job, before) :: picks l := rfl

@[simp] theorem picks_cons_status (id : ℕ) (st : Status) (l : List (Event α)) :
    picks (.status id st :: l) = picks l := rfl

@[simp] theorem picks_cons_settle (id : ℕ) (out : Settlement α) (l : List (Event α)) :
    picks (.settle id out :: l) = picks l := rfl

@[simp] theorem picks_cons_record (id : ℕ) (e : DoneEntry) (l : List (Event α)) :
    picks (.record id e :: l) = picks l := rfl

@[simp] theorem picks_cons_execute (id : ℕ) (l : List (Event α)) :
    picks (.execute id :: l) = picks l := rfl

@[simp] theorem picks_cons_expiring (job : Job) (before : Tables) (l : List (Event α)) :
    picks (.expiring job before :: l) = picks l := rfl

@[simp] theorem picks_notified (job : Job) (st : Status) :
    picks (notified job st : List (Event α)) = [] := by
  unfold notified
  split <;> rfl

@[simp] theorem expiries_nil : expiries ([] : List (Event α)) = [] := rfl

@[simp] theorem expiries_append (l m : List (Event α)) :
    expiries (l ++ m) = expiries l ++ expiries m :=
  List.filterMap_append

@[simp] theorem expiries_cons_expiring (job : Job) (before : Tables) (l : List (Event α)) :
    expiries (.expiring job before :: l) = (job, before) :: expiries l := rfl

@[simp] theorem expiries_cons_picked (job : Job) (before : Tables) (l : List (Event α)) :
    expiries (.picked job before :: l) = expiries l := rfl

@[simp] theorem expiries_cons_settle (id : ℕ) (out : Settlement α) (l : List (Event α)) :
    expiries (.settle id out :: l) = expiries l := rfl

@[simp] theorem expiries_cons_record (id : ℕ) (e : DoneEntry) (l : List (Event α)) :
    expiries (.record id e :: l) = expiries l := rfl

@[simp] theorem expiries_cons_execute (id : ℕ) (l : List (Event α)) :
    expiries (.execute id :: l) = expiries l := rfl

@[simp] theorem expiries_notified (job : Job) (st : Status) :
    expiries (notified job st : List (Event α)) = [] := by
  unfold notified
  split <;> rfl

section OneJob

variable (id : ℕ) (l m : List (Event α))

@[simp] theorem life_nil : life id ([] : List (Event α)) = [] := rfl

@[simp] theorem life_append : life id (l ++ m) = life id l ++ life id m := List.filter_append ..

@[simp] theorem life_cons_settle (j : ℕ) (out : Settlement α) :
    life id (.settle j out :: l) = if j = id then .settle j out :: life id l else life id l := by
  by_cases h : j = id <;> simp [life, Event.about, h]

@[simp] theorem life_cons_record (j : ℕ) (e : DoneEntry) :
    life id (.record j e :: l) = if j = id then .record j e :: life id l else life id l := by
  by_cases h : j = id <;> simp [life, Event.about, h]

@[simp] theorem life_cons_picked (job : Job) (before : Tables) :
    life id (.picked job before :: l) = life id l := rfl

@[simp] theorem life_cons_expiring (job : Job) (before : Tables) :
    life id (.expiring job before :: l) = life id l := rfl

@[simp] theorem life_cons_execute (j : ℕ) : life id (.execute j :: l) = life id l := rfl

@[simp] theorem life_notified (job : Job) (st : Status) :
    life id (notified job st : List (Event α)) = if job.id = id then notified job st else [] := by
  unfold notified
  by_cases hcb : job.onStatus = true <;> by_cases h : job.id = id <;>
    simp [life, Event.about, hcb, h]

@[simp] theorem executions_nil : executions id ([] : List (Event α)) = 0 := rfl

@[simp] theorem executions_append : executions id (l ++ m) = executions id l + executions id m :=
  List.countP_append

@[simp] theorem executions_cons_settle (j : ℕ) (out : Settlement α) :
    executions id (.settle j out :: l) = executions id l := by
  simp [executions, Event.executes]

@[simp] theorem executions_cons_record (j : ℕ) (e : DoneEntry) :
    executions id (.record j e :: l) = executions id l := by
  simp [executions, Event.executes]

@[simp] theorem executions_cons_picked (job : Job) (before : Tables) :
    executions id (.picked job before :: l) = executions id l := by
  simp [executions, Event.executes]

@[simp] theorem executions_cons_expiring (job : Job) (before : Tables) :
    executions id (.expiring job before :: l) = executions id l := by
  simp [executions, Event.executes]

@[simp] theorem executions_cons_execute (j : ℕ) :
    executions id (.execute j :: l) = executions id l + if j = id then 1 else 0 := by
  simp [executions, Event.executes, List.countP_cons]

@[simp] theorem executions_notified (job : Job) (st : Status) :
    executions id (notified job st : List (Event α)) = 0 := by
  unfold notified
  split <;> simp [executions, Event.executes]

@[simp] theorem settlements_nil : settlements id ([] : List (Event α)) = 0 := rfl

@[simp] theorem settlements_append :
    settlements id (l ++ m) = settlements id l + settlements id m :=
  List.countP_append

@[simp] theorem settlements_cons_settle (j : ℕ) (out : Settlement α) :
    settlements id (.settle j out :: l) = settlements id l + if j = id then 1 else 0 := by
  simp [settlements, Event.settles, List.countP_cons]

@[simp] theorem settlements_cons_record (j : ℕ) (e : DoneEntry) :
    settlements id (.record j e :: l) = settlements id l := by
  simp [settlements, Event.settles]

@[simp] theorem settlements_cons_picked (job : Job) (before : Tables) :
    settlements id (.picked job before :: l) = settlements id l := by
  simp [settlements, Event.settles]

@[simp] theorem settlements_cons_expiring (job : Job) (before : Tables) :
    settlements id (.expiring job before :: l) = settlements id l := by
  simp [settlements, Event.settles]

@[simp] theorem settlements_notified (job : Job) (st : Status) :
    settlements id (notified job st : List (Event α)) = 0 := by
  unfold notified
  split <;> simp [settlements, Event.settles]

/-- A job's settlements are found in its own sequence. -/
theorem settlements_life : settlements id (life id l) = settlements id l := by
  rw [settlements, life, List.countP_filter]
  refine List.countP_congr fun e _ => ?_
  cases e <;> simp [Event.settles, Event.about]

end OneJob

theorem mem_expiries {job : Job} {before : Tables} {l : List (Event α)} :
    (job, before) ∈ expiries l ↔ Event.expiring job before ∈ l := by
  constructor
  · intro h
    obtain ⟨e, he, hexp⟩ := List.mem_filterMap.mp h
    cases e with
    | expiring job' before' =>
        rw [Event.expiry?, Option.some.injEq, Prod.mk.injEq] at hexp
        rw [← hexp.1, ← hexp.2]
        exact he
    | _ => cases hexp
  · intro h
    exact List.mem_filterMap.mpr ⟨_, h, rfl⟩

theorem mem_picks {job : Job} {before : Tables} {l : List (Event α)} :
    (job, before) ∈ picks l ↔ Event.picked job before ∈ l := by
  constructor
  · intro h
    obtain ⟨e, he, hpick⟩ := List.mem_filterMap.mp h
    cases e with
    | picked job' before' =>
        rw [Event.pick?, Option.some.injEq, Prod.mk.injEq] at hpick
        rw [← hpick.1, ← hpick.2]
        exact he
    | _ => cases hpick
  · intro h
    exact List.mem_filterMap.mpr ⟨_, h, rfl⟩

/-- The history and the list of created jobs only grow. -/
structure Grown (l : List (Event α)) (jobs : List Job) (s : State α) : Prop where
  trace : l <+: s.trace
  jobs : jobs <+: s.jobs

theorem Grown.append {l m : List (Event α)} {jobs : List Job} {s t : State α}
    (h : Grown l jobs s) (ht : t.trace = s.trace ++ m) (hj : t.jobs = s.jobs) : Grown l jobs t where
  trace := ht ▸ h.trace.trans (List.prefix_append _ _)
  jobs := hj ▸ h.jobs

theorem grown_kept (o : Options) (clock : ℕ → ℤ) (l : List (Event α)) (jobs : List Job) :
    Kept o clock (Grown l jobs) where
  stay _ h := h
  tick _ h := ⟨h.trace, h.jobs⟩
  start job _ h _ _ := by
    rw [startPicked_eq]
    exact h.append rfl rfl
  accept req _ h _ := by
    rw [accept_eq]
    exact ⟨h.trace.trans (List.prefix_append _ _), h.jobs.trans (List.prefix_append _ _)⟩
  disarm _ _ _ h _ _ _ _ := ⟨h.trace, h.jobs⟩
  expire _ job _ h _ _ _ _ := by
    rw [expireQueued_eq]
    exact h.append rfl rfl
  cancelQueued _ job _ h _ := by
    rw [cancelQueued_eq]
    exact h.append rfl rfl
  abort _ _ _ h _ := ⟨h.trace, h.jobs⟩
  timeOut k r _ h _ _ _ _ := by
    rw [timeOut_eq]
    exact h.append rfl rfl
  timeOutFree k r _ h _ _ _ _ := by
    rw [freeSlot_eq, timeOut_eq]
    exact h.append rfl rfl
  call _ _ _ h _ _ := h.append rfl rfl
  settle _ _ _ _ h _ _ := ⟨h.trace, h.jobs⟩
  react k r result _ h _ _ ht := by
    rw [react_eq o clock ht]
    exact h.append rfl rfl
  reactLate _ _ _ _ h _ _ _ := ⟨h.trace, h.jobs⟩
  finish _ _ _ h _ _ _ := ⟨h.trace, h.jobs⟩
  finishFree k r _ h _ _ _ := by
    rw [freeSlot_eq]
    exact ⟨h.trace, h.jobs⟩

/-- Whatever a run goes on with, it keeps the history and the jobs. -/
theorem grown_of_exec {o : Options} {clock : ℕ → ℤ} {s s' : State α} {as : List (Action α)}
    (h : Machine.exec (step o clock) s as = some s') : Grown s.trace s.jobs s' :=
  Machine.exec_invariant ⟨List.prefix_refl _, List.prefix_refl _⟩
    (fun _ _ _ ht hs => (grown_kept o clock _ _).step kept_true trivial ht hs) h

/-- A step goes on from the history and the jobs that it finds. -/
theorem grown_of_step {o : Options} {clock : ℕ → ℤ} {s s' : State α} {a : Action α}
    (h : step o clock s a = some s') : Grown s.trace s.jobs s' :=
  (grown_kept o clock s.trace s.jobs).step kept_true trivial
    ⟨List.prefix_refl _, List.prefix_refl _⟩ h

/-- What a step finds in the history stays in it. -/
theorem mem_trace_of_step {o : Options} {clock : ℕ → ℤ} {s s' : State α} {a : Action α}
    {e : Event α} (he : e ∈ s.trace) (h : step o clock s a = some s') : e ∈ s'.trace :=
  (grown_of_step h).trace.subset he

end ServeInfer.Scheduler
