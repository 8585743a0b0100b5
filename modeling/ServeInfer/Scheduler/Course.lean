import ServeInfer.Scheduler.History

/-!
# The course of a job

What a job's owner may see: the notifications, the settlement of the promise and
the entry in `done`, in the order the scheduler promises them. This is the
statement of purpose that the scheduler's code is held against.
-/

namespace ServeInfer.Scheduler

variable {α : Type}

/-- The ways a job ends, with the readings the code takes. -/
inductive Ending (α : Type)
  | queueTimeout (waitedMs finishedAt : ℤ)
  | cancelled (finishedAt : ℤ)
  | resolved (result : α) (finishedAt : ℤ)
  | failed (err : Thrown α) (finishedAt : ℤ)
  | aborted (err : Thrown α) (finishedAt : ℤ)
  | execTimeout (ranMs finishedAt : ℤ)

namespace Ending

/-- The job was started before it ended so. -/
def ran : Ending α → Bool
  | queueTimeout .. => false
  | cancelled .. => false
  | _ => true

/-- The notification that announces the ending, if there is one. -/
def status : Ending α → Option Status
  | queueTimeout waitedMs _ => some (.timeout waitedMs true)
  | cancelled _ => some (.cancelled "user_cancelled")
  | execTimeout ranMs _ => some (.execTimeout "execution" ranMs true)
  | _ => none

def settlement (job : Job) : Ending α → Settlement α
  | queueTimeout waitedMs _ => .rejected (.scheduler (.queueTimeout job.requestId waitedMs))
  | cancelled _ => .rejected (.scheduler (.requestCancelled job.requestId (some "queued")))
  | resolved result _ => .resolved result
  | failed err _ => .rejected (.thrown err)
  | aborted err _ => .rejected (abortReason job err)
  | execTimeout ranMs _ => .rejected (.scheduler (.execTimeout job.requestId ranMs))

def entry (job : Job) : Ending α → DoneEntry
  | queueTimeout waitedMs finishedAt =>
      { state := .timeout, requestId := job.requestId, waitedMs := some waitedMs,
        retryable := some true, finishedAt := finishedAt }
  | cancelled finishedAt =>
      { state := .cancelled, requestId := job.requestId, finishedAt := finishedAt }
  | resolved _ finishedAt =>
      { state := .done, requestId := job.requestId, finishedAt := finishedAt }
  | failed err finishedAt =>
      { state := .failed, requestId := job.requestId, finishedAt := finishedAt,
        message := some (failureMessage err) }
  | aborted _ finishedAt =>
      { state := .cancelled, requestId := job.requestId, finishedAt := finishedAt }
  | execTimeout ranMs finishedAt =>
      { state := .timeout, requestId := job.requestId, phase := some "execution",
        ranMs := some ranMs, retryable := some true, finishedAt := finishedAt }

/-- Announced, settled, recorded. -/
def events (job : Job) (e : Ending α) : List (Event α) :=
  (e.status.elim [] fun st => notified job st) ++
    [.settle job.id (e.settlement job), .record job.id (e.entry job)]

end Ending

/-- How far a job has come. -/
inductive Course (α : Type)
  | waiting (position : ℤ) (estimatedWaitMs : ℚ)
  | started (position : ℤ) (estimatedWaitMs : ℚ)
  | ended (position : ℤ) (estimatedWaitMs : ℚ) (ending : Ending α)

namespace Course

/-- Everything the course has shown so far. -/
def events (job : Job) : Course α → List (Event α)
  | waiting p w => notified job (.queued p w)
  | started p w => notified job (.queued p w) ++ notified job .started
  | ended p w e =>
      notified job (.queued p w) ++ (if e.ran then notified job .started else []) ++ e.events job

def isEnded : Course α → Bool
  | ended .. => true
  | _ => false

/-- A course settles the promise once, at its end. -/
theorem settlements_events (job : Job) (c : Course α) :
    settlements job.id (c.events job) = if c.isEnded then 1 else 0 := by
  cases c with
  | waiting p w => simp [events, isEnded]
  | started p w => simp [events, isEnded]
  | ended p w e =>
      have hend : settlements job.id (e.events job) = 1 := by
        unfold Ending.events
        cases e.status <;> simp
      cases hran : e.ran <;> simp [events, isEnded, hend, hran]

/-- What an ended course shows before it settles. -/
def announced (job : Job) (p : ℤ) (w : ℚ) (e : Ending α) : List (Event α) :=
  notified job (.queued p w) ++ (if e.ran then notified job .started else []) ++
    (e.status.elim [] fun st => notified job st)

theorem settlements_announced (job : Job) (p : ℤ) (w : ℚ) (e : Ending α) :
    settlements job.id (announced job p w e) = 0 := by
  unfold announced
  cases e.status <;> cases e.ran <;> simp

theorem events_ended (job : Job) (p : ℤ) (w : ℚ) (e : Ending α) :
    (ended p w e).events job =
      announced job p w e ++ [.settle job.id (e.settlement job), .record job.id (e.entry job)] := by
  simp [events, Ending.events, announced, List.append_assoc]

/-- Nothing follows the end of a course. -/
theorem eq_of_prefix {job : Job} {c c' : Course α} (hend : c.isEnded = true)
    (h : c.events job <+: c'.events job) : c'.events job = c.events job := by
  obtain ⟨rest, hrest⟩ := h
  have hcount : settlements job.id (c'.events job) =
      1 + settlements job.id rest := by
    rw [← hrest, settlements_append, c.settlements_events, if_pos hend]
  rw [c'.settlements_events] at hcount
  cases c' with
  | waiting p w => simp [isEnded] at hcount; omega
  | started p w => simp [isEnded] at hcount; omega
  | ended p' w' e' =>
      cases c with
      | waiting p w => cases hend
      | started p w => cases hend
      | ended p w e =>
          rw [events_ended, events_ended] at hrest ⊢
          cases rest with
          | nil => rw [← hrest, List.append_nil]
          | cons x rest =>
              -- Otherwise the settlement would stand before the last two events of `c'`.
              exfalso
              have hlen := congrArg List.length hrest
              simp only [List.length_append, List.length_cons, List.length_nil] at hlen
              have hshort : announced job p w e ++ [.settle job.id (e.settlement job)] <+:
                  announced job p' w' e' ++
                    [.settle job.id (e'.settlement job), .record job.id (e'.entry job)] :=
                ⟨.record job.id (e.entry job) :: x :: rest, by rw [← hrest]; simp⟩
              have hpre : announced job p w e ++ [.settle job.id (e.settlement job)] <+:
                  announced job p' w' e' := by
                apply List.prefix_of_prefix_length_le hshort (List.prefix_append _ _)
                simp only [List.length_append, List.length_cons, List.length_nil]
                omega
              obtain ⟨tail, htail⟩ := hpre
              have hsett := settlements_announced job p' w' e'
              rw [← htail] at hsett
              simp at hsett

end Course

/-- The state a notification names, and its phase where it has one. -/
def Status.label : Status → String × Option String
  | queued .. => ("queued", none)
  | started => ("started", none)
  | cancelled .. => ("cancelled", none)
  | timeout .. => ("timeout", none)
  | execTimeout phase .. => ("timeout", some phase)

def Event.label? : Event α → Option (String × Option String)
  | status _ st => some st.label
  | _ => none

/-- The states told, in order. -/
def labels (l : List (Event α)) : List (String × Option String) := l.filterMap Event.label?

/-- The sequences of states a job may go through. -/
def lifePaths : List (List (String × Option String)) :=
  [[("queued", none), ("timeout", none)], [("queued", none), ("cancelled", none)],
    [("queued", none), ("started", none)],
    [("queued", none), ("started", none), ("timeout", some "execution")]]

theorem labels_notified (job : Job) (st : Status) :
    labels (notified job st : List (Event α)) = if job.onStatus then [st.label] else [] := by
  unfold notified
  split <;> rfl

/-- A course tells a prefix of one of the paths, and all of it once it has ended. -/
theorem Course.labels_events (job : Job) (c : Course α) :
    ∃ path ∈ lifePaths, labels (c.events job) <+: path ∧
      (c.isEnded = true → job.onStatus = true → labels (c.events job) = path) := by
  have happ : ∀ l m : List (Event α), labels (l ++ m) = labels l ++ labels m :=
    fun l m => List.filterMap_append
  have hquiet : ∀ e : Ending α, labels
      [Event.settle job.id (e.settlement job), Event.record job.id (e.entry job)] = [] :=
    fun e => rfl
  cases hcb : job.onStatus with
  | false =>
      refine ⟨_, List.mem_cons_self, ?_, fun _ h => by cases h⟩
      have hnone : labels (c.events job) = [] := by
        cases c with
        | waiting p w => simp [events, labels_notified, hcb]
        | started p w => simp [events, happ, labels_notified, hcb]
        | ended p w e =>
            rw [events_ended, happ, hquiet]
            unfold announced
            cases e.ran <;> cases e.status <;> simp [happ, labels_notified, hcb]
      rw [hnone]
      exact List.nil_prefix
  | true =>
      cases c with
      | waiting p w =>
          refine ⟨[("queued", none), ("timeout", none)], by decide, ?_, fun h => by cases h⟩
          simp [events, labels_notified, hcb, Status.label]
      | started p w =>
          refine ⟨[("queued", none), ("started", none)], by decide, ?_, fun h => by cases h⟩
          simp [events, happ, labels_notified, hcb, Status.label]
      | ended p w e =>
          have htold : labels ((ended p w e).events job) ∈ lifePaths := by
            rw [events_ended, happ, hquiet, List.append_nil]
            cases e <;>
              simp [announced, Ending.ran, Ending.status, happ, labels_notified, hcb,
                Status.label, lifePaths]
          exact ⟨_, htold, List.prefix_refl _, fun _ _ => rfl⟩

end ServeInfer.Scheduler
