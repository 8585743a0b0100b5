import ServeInfer.Scheduler.Causes
import ServeInfer.Scheduler.LiveIds
import ServeInfer.Scheduler.NoJobLost

/-!
# The life cycle of a job

Where no live id is reused, every job goes through one of the courses: it is
queued and then times out or is cancelled there, or it is started and then
answered, aborted or timed out. What it shows is never more than that course, and
the ending is the one that its timers, a `cancel` or its `execute` account for.
-/

namespace ServeInfer.Scheduler

variable {α : Type} {o : Options} {clock : ℕ → ℤ} {s : State α}

/-- With distinct ids every queued job is the first of its id. -/
theorem firstOfId_of_nodup {t : Tables} {job : Job} (hnd : (t.queue.map Job.requestId).Nodup)
    (hj : job ∈ t.queue) : FirstOfId (job, t) := by
  unfold FirstOfId
  obtain ⟨queue, active, perMfeActive⟩ := t
  dsimp only at hnd hj ⊢
  induction queue with
  | nil => cases hj
  | cons item queue ih =>
      rw [List.map_cons, List.nodup_cons] at hnd
      by_cases heq : item.requestId = job.requestId
      · rw [List.find?_cons_of_pos (by simpa using heq)]
        rcases List.mem_cons.mp hj with rfl | hin
        · rfl
        · exact absurd (heq ▸ List.mem_map_of_mem hin) hnd.1
      · rw [List.find?_cons_of_neg (by simpa using heq)]
        rcases List.mem_cons.mp hj with rfl | hin
        · exact absurd rfl heq
        · exact ih hnd.2 hin

/-- All that is known of a state that a run without reused live ids reaches. -/
structure Orderly (s : State α) : Prop extends ShapedWhole s, DistinctIds s

theorem orderly_of_notReused {as : List (Action α)} {s : State α}
    (hg : Machine.Guarded (step o clock) NotReused (init o) as)
    (h : exec o clock as = some s) : Orderly s := by
  have h0 : Orderly (init o : State α) := ⟨ShapedWhole.start_of_run o, DistinctIds.start_of_run o⟩
  refine hg.invariant h0 ?_ h
  intro t a t' ht hok hs
  have hshape : Shape t' := (Shape.kept o clock).step kept_true trivial ht.toShape hs
  have hdistinct : DistinctIds t' :=
    (DistinctIds.turn o clock).step kept_true trivial ⟨ht.toDistinctIds, hok⟩ hs
  have hwhole : Whole t' := by
    rcases (whole_turn o clock).step (Shape.kept o clock) ht.toShape ht.toWhole hs with
      hwhole | ⟨-, ⟨job, before⟩, hp, hq, hstray⟩
    · exact hwhole
    · exact absurd (firstOfId_of_nodup (hdistinct.distinct _ hp) hq) hstray
  exact ⟨⟨hshape, hwhole⟩, hdistinct⟩

/-- The job keeps to one of the documented paths: what it has shown is a course whose ending the run
accounts for, its states are those of one path, and its promise is settled at most once. -/
structure FollowsLifeCycle (o : Options) (clock : ℕ → ℤ) (as : List (Action α)) (s : State α)
    (job : Job) : Prop where
  course : ∃ c : Course α, life job.id s.trace = c.events job ∧
    ∀ p w e, c = .ended p w e → e.Caused o clock as job
  states : ∃ path ∈ lifePaths, labels (life job.id s.trace) <+: path ∧
    (s.isSettled job → job.onStatus = true → labels (life job.id s.trace) = path)
  settled : settlements job.id s.trace ≤ 1

theorem settlements_of_course {s : State α} {job : Job} {c : Course α}
    (h : life job.id s.trace = c.events job) :
    settlements job.id s.trace = if c.isEnded then 1 else 0 := by
  rw [← settlements_life, h, c.settlements_events]

section Endings

variable {a : Action α} {e e' : Ending α} {job : Job}

theorem Ending.Due.mem (h : e.Due s a job) (hs : Shape s) : job ∈ s.jobs := by
  cases e with
  | queueTimeout waitedMs finishedAt =>
      obtain ⟨id, -, hj, -⟩ := h
      exact List.mem_of_getElem? hj
  | cancelled finishedAt =>
      obtain ⟨requestId, -, hf⟩ := h
      exact hs.queued job (List.mem_of_find?_eq_some hf)
  | resolved result finishedAt =>
      obtain ⟨k, r, -, hr, rfl, -⟩ := h
      exact hs.job_mem hr
  | failed err finishedAt =>
      obtain ⟨k, r, -, hr, rfl, -⟩ := h
      exact hs.job_mem hr
  | aborted err finishedAt =>
      obtain ⟨k, r, -, hr, rfl, -⟩ := h
      exact hs.job_mem hr
  | execTimeout ranMs finishedAt =>
      obtain ⟨k, r, -, hr, rfl⟩ := h
      exact hs.job_mem hr

/-- What is due after a run is what the run accounts for. -/
theorem Ending.Due.accountedBy {as : List (Action α)} (h : e.Due s a job)
    (hexec : exec o clock as = some s) (hs : Orderly s) : e.AccountedBy o clock as s a job := by
  have hj : job ∈ s.jobs := h.mem hs.toShape
  have hcalls : ∀ {k : ℕ} {r : Run α}, s.runs[k]? = some r → r.job = job → s.CallsFor k job := by
    rintro k r hr rfl
    rw [State.CallsFor, hr, Option.map_some]
  cases e with
  | queueTimeout waitedMs finishedAt =>
      obtain ⟨id, rfl, hget, harmed⟩ := h
      obtain rfl := hs.index id job hget
      exact ⟨rfl, ((hs.phases job hj).waiting_of_armed harmed).queued⟩
  | cancelled finishedAt =>
      obtain ⟨requestId, rfl, hf⟩ := h
      have hid : job.requestId = requestId := by simpa using List.find?_some hf
      exact ⟨by rw [hid], List.mem_of_find?_eq_some hf⟩
  | resolved result finishedAt =>
      obtain ⟨k, r, rfl, hr, hjob, hst⟩ := h
      exact ⟨k, rfl, hcalls hr hjob, mem_of_result hexec hr hst⟩
  | failed err finishedAt =>
      obtain ⟨k, r, rfl, hr, hjob, hst, htimed, hdown⟩ := h
      refine ⟨k, rfl, ⟨hcalls hr hjob, mem_of_result hexec hr hst⟩, fun hsignal => ?_⟩
      rw [(aborted_iff hexec hj htimed).mpr hsignal] at hdown
      cases hdown
  | aborted err finishedAt =>
      obtain ⟨k, r, rfl, hr, hjob, hst, htimed, hraised⟩ := h
      exact ⟨k, rfl, ⟨hcalls hr hjob, mem_of_result hexec hr hst⟩,
        (aborted_iff hexec hj htimed).mp hraised⟩
  | execTimeout ranMs finishedAt =>
      obtain ⟨k, r, rfl, hr, hjob⟩ := h
      exact ⟨k, rfl, hcalls hr hjob⟩

/-- An abort is not taken for a cancel in the queue. -/
theorem abortReason_ne (job : Job) (err : Thrown α) :
    abortReason job err ≠ .scheduler (.requestCancelled job.requestId (some "queued")) := by
  cases err <;> simp [abortReason]

/-- Endings with one settlement and one entry show the same. -/
theorem Ending.events_congr (p : ℤ) (w : ℚ) (hsettle : e.settlement job = e'.settlement job)
    (hentry : e.entry job = e'.entry job) :
    (Course.ended p w e).events job = (Course.ended p w e').events job := by
  have hsame : e.ran = e'.ran ∧ e.status = e'.status := by
    cases e <;> cases e' <;>
      simp_all [Ending.settlement, Ending.entry, Ending.ran, Ending.status, abortReason_ne,
        (abortReason_ne _ _).symm]
  rw [Course.events_ended, Course.events_ended, Course.announced, Course.announced, hsettle, hentry,
    hsame.1, hsame.2]

theorem mem_life {id : ℕ} {x : Event α} {l : List (Event α)} (hx : x.about id = true)
    (h : x ∈ l) : x ∈ life id l :=
  List.mem_filter.mpr ⟨h, hx⟩

/-- The entry of an ended course is the only one. -/
theorem Course.entry_of_mem {p : ℤ} {w : ℚ} {entry : DoneEntry}
    (h : .record job.id entry ∈ (Course.ended p w e).events job) : entry = e.entry job := by
  have hquiet : ∀ st : Status, .record job.id entry ∉ (notified job st : List (Event α)) := by
    intro st
    unfold notified
    split <;> simp
  rw [Course.events_ended, List.mem_append] at h
  rcases h with hsaid | hend
  · unfold Course.announced at hsaid
    cases hran : e.ran <;> cases hstatus : e.status <;> simp [hran, hstatus, hquiet] at hsaid
  · simpa using hend

/-- The ending of a job is due at the step that settles it. -/
theorem exists_caused {as : List (Action α)}
    (hg : Machine.Guarded (step o clock) NotReused (init o) as) (h : exec o clock as = some s)
    (hj : job ∈ s.jobs) {p : ℤ} {w : ℚ}
    (hlife : life job.id s.trace = (Course.ended p w e).events job) :
    ∃ e' : Ending α, life job.id s.trace = (Course.ended p w e').events job ∧
      e'.Caused o clock as job := by
  have hsettled : .settle job.id (e.settlement job) ∈ s.trace := by
    have hmem : .settle job.id (e.settlement job) ∈ life job.id s.trace := by
      rw [hlife, Course.events_ended]
      simp
    exact (List.mem_filter.mp hmem).1
  obtain ⟨pre, a, t, t', hp, ht, hstep, ht', hbefore, hafter⟩ := Machine.exists_step_of_exec
    (P := fun s : State α => .settle job.id (e.settlement job) ∈ s.trace) (by simp [init]) h hsettled
  obtain hold | ⟨job', e', hid, hdue, hsettle, hrecord⟩ :=
    (settled_turn o clock t a).step kept_true trivial ⟨rfl, rfl⟩ hstep _ _ hafter
  · exact absurd hold hbefore
  · have hshape : Shape t := shape_of_exec ht
    obtain ⟨rest, rfl⟩ := hp
    have hrest : Machine.exec (step o clock) t' rest = some s := by
      rwa [exec, Machine.exec_append, ht', Option.bind_some] at h
    have hgrown := grown_of_exec hrest
    have hstepped := grown_of_step hstep
    have hj' : job' ∈ s.jobs := hgrown.jobs.subset (hstepped.jobs.subset (hdue.mem hshape))
    obtain rfl : job' = job := (shape_of_exec h).eq_of_id_eq hj' hj hid
    have hentry : e'.entry job' = e.entry job' := by
      apply Course.entry_of_mem
      rw [← hlife]
      exact mem_life (by simp [Event.about]) (hgrown.trace.subset hrecord)
    refine ⟨e', hlife.trans (Ending.events_congr p w hsettle hentry.symm), pre, a, t, ?_, ht, ?_⟩
    · exact List.prefix_append _ _
    · apply hdue.accountedBy ht
      apply orderly_of_notReused (hg.restrict _) ht
      rw [List.append_assoc]
      exact List.prefix_append _ _

end Endings

/-- A job in a phase follows its life cycle. -/
theorem Phase.followsLifeCycle {as : List (Action α)}
    (hg : Machine.Guarded (step o clock) NotReused (init o) as) (hexec : exec o clock as = some s)
    {job : Job} (hj : job ∈ s.jobs) (h : Phase s job) : FollowsLifeCycle o clock as s job := by
  obtain ⟨c, hc⟩ := h.course
  have hcount := settlements_of_course hc
  refine ⟨?_, ?_, ?_⟩
  · cases c with
    | waiting p w => exact ⟨_, hc, by simp⟩
    | started p w => exact ⟨_, hc, by simp⟩
    | ended p w e =>
        obtain ⟨e', hlife, hcaused⟩ := exists_caused hg hexec hj hc
        refine ⟨_, hlife, ?_⟩
        rintro _ _ _ ⟨⟩
        exact hcaused
  · obtain ⟨path, hpath, hpre, hall⟩ := c.labels_events job
    refine ⟨path, hpath, hc ▸ hpre, ?_⟩
    intro hset hcb
    rw [hc]
    apply hall _ hcb
    rw [State.isSettled, hcount] at hset
    cases hend : c.isEnded with
    | true => rfl
    | false => simp [hend] at hset
  · rw [hcount]
    split <;> omega

/-- Nothing is told, settled or recorded for a job after it is settled. -/
theorem life_eq_of_settled {s s' : State α} {job : Job} (h : Phase s job) (h' : Phase s' job)
    (hgrows : s.trace <+: s'.trace) (hset : s.isSettled job) :
    life job.id s'.trace = life job.id s.trace := by
  obtain ⟨c, hc⟩ := h.course
  obtain ⟨c', hc'⟩ := h'.course
  have hend : c.isEnded = true := by
    rw [State.isSettled, settlements_of_course hc] at hset
    cases hend : c.isEnded with
    | true => rfl
    | false => simp [hend] at hset
  have hpre : c.events job <+: c'.events job := by
    rw [← hc, ← hc']
    exact hgrows.filter _
  rw [hc, hc']
  exact Course.eq_of_prefix hend hpre

/-- Where no live id is reused, every accepted job goes through one of the documented courses, to
an ending that its timers, a `cancel` or what its `execute` was settled with account for, and once
it is settled nothing more is told, settled or recorded for it. -/
theorem job_life_cycle {as bs : List (Action α)} {s s' : State α}
    (hg : Machine.Guarded (step o clock) NotReused (init o) (as ++ bs))
    (h : exec o clock as = some s) (h' : exec o clock (as ++ bs) = some s') {job : Job}
    (hj : job ∈ s.jobs) :
    FollowsLifeCycle o clock as s job ∧
      (s.isSettled job → life job.id s'.trace = life job.id s.trace) := by
  have hs : Orderly s := orderly_of_notReused (hg.restrict (List.prefix_append as bs)) h
  have hs' : Orderly s' := orderly_of_notReused hg h'
  have hrest : Machine.exec (step o clock) s bs = some s' := by
    rw [exec, Machine.exec_append] at h'
    rwa [show Machine.exec (step o clock) (init o) as = some s from h, Option.bind_some] at h'
  have hgrown : Grown s.trace s.jobs s' := grown_of_exec hrest
  have hphase : Phase s job := hs.phases job hj
  have hphase' : Phase s' job := hs'.phases job (hgrown.jobs.subset hj)
  exact ⟨hphase.followsLifeCycle (hg.restrict (List.prefix_append as bs)) h hj,
    life_eq_of_settled hphase hphase' hgrown.trace⟩

/-- A job that is started and times out while it runs. -/
def runsTooLong : List (Action ℕ) :=
  [.enqueue { requestId := "x", mfeId := "m" }, .callExecute 0, .execTimer 0]

/-- Its `execute` answers after all. -/
def answersLate : List (Action ℕ) := [.settleExecute 0 (.ok 7), .react 0, .finalize 0]

theorem job_life_cycle_runsTooLong :
    ∃ s s' : State ℕ, exec {} (fun _ => 0) runsTooLong = some s ∧
      exec {} (fun _ => 0) (runsTooLong ++ answersLate) = some s' ∧
      FollowsLifeCycle {} (fun _ => 0) runsTooLong s ⟨0, "x", "m", .normal, true, 0⟩ ∧
      (s.isSettled ⟨0, "x", "m", .normal, true, 0⟩ → life 0 s'.trace = life 0 s.trace) := by
  have hrun : ((exec {} (fun _ => 0) runsTooLong : Option (State ℕ)).map State.jobs) =
      some [⟨0, "x", "m", .normal, true, 0⟩] := by
    decide +kernel
  have hrun' : (exec {} (fun _ => 0) (runsTooLong ++ answersLate) :
      Option (State ℕ)).isSome = true := by
    decide
  obtain ⟨s, hs, hjobs⟩ := Option.map_eq_some_iff.mp hrun
  obtain ⟨s', hs'⟩ := Option.isSome_iff_exists.mp hrun'
  refine ⟨s, s', hs, hs', job_life_cycle ?_ hs hs' (by rw [hjobs]; exact List.mem_singleton_self _)⟩
  simp only [runsTooLong, answersLate, List.cons_append, List.nil_append, Machine.guarded_cons]
  refine ⟨⟨by simp [init], rfl⟩, fun _ _ => ?_⟩
  exact ⟨trivial, fun _ _ => ⟨trivial, fun _ _ => ⟨trivial, fun _ _ => ⟨trivial, fun _ _ =>
    ⟨trivial, fun _ _ => Machine.guarded_nil⟩⟩⟩⟩⟩

end ServeInfer.Scheduler
