import ServeInfer.Scheduler.LifeCycle
import ServeInfer.ShellApp.StreamRoute

/-!
# The order of a stream's events

A response is read by an automaton whose states are what a client may expect next. It follows
the course of the job: what the scheduler tells leads to the place of the course, tokens come
only where the job is started, and the end is written where the course has ended.
-/

namespace ServeInfer.ShellApp

open Scheduler (Status Settlement Event Options Request Job Course Ending Orderly NotReused life
  settlements)

/-- What a response has come to. -/
inductive Place
  | opened
  | waiting
  | dropped
  | running
  | overdue
  | failed
  | closed
  deriving DecidableEq, Repr

/-- What may be written next, and what it leads to. -/
def Place.next : Place → Frame → Option Place
  | .opened, .queued .. => some .waiting
  | .opened, .error _ => some .failed
  | .waiting, .started _ => some .running
  | .waiting, .cancelled .. => some .dropped
  | .waiting, .timeout _ phase .. => if phase = "queue" then some .dropped else none
  | .running, .token _ => some .running
  | .running, .done _ => some .running
  | .running, .timeout _ phase .. => if phase = "execution" then some .overdue else none
  | .running, .error _ => some .failed
  | .running, .ends => some .closed
  | .dropped, .error _ => some .failed
  | .overdue, .error _ => some .failed
  | .failed, .ends => some .closed
  | _, _ => none

/-- Where the frames lead. -/
abbrev reads (frames : List Frame) : Option Place := Machine.exec Place.next .opened frames

variable {α : Type}

/-- The place of an ending before the response is ended. -/
def endingPlace : Ending α → Place
  | .queueTimeout .. => .dropped
  | .cancelled .. => .dropped
  | .execTimeout .. => .overdue
  | _ => .running

def coursePlace : Course α → Place
  | .waiting .. => .waiting
  | .started .. => .running
  | .ended _ _ e => endingPlace e

/-- The frames of what a job's owner is told. -/
def framesOf (requestId : String) (l : List (Event α)) : List Frame :=
  l.filterMap fun
    | .status _ status => some (statusFrame requestId status)
    | _ => none

theorem framesOf_append (requestId : String) (l m : List (Event α)) :
    framesOf requestId (l ++ m) = framesOf requestId l ++ framesOf requestId m :=
  List.filterMap_append

/-- The frames of a course lead to its place. -/
theorem reads_course (requestId : String) {job : Job} (hcb : job.onStatus = true)
    (c : Course α) : reads (framesOf requestId (c.events job)) = some (coursePlace c) := by
  cases c with
  | waiting p w => simp [Course.events, Scheduler.notified, hcb, framesOf, statusFrame, reads,
      Place.next, coursePlace]
  | started p w => simp [Course.events, Scheduler.notified, hcb, framesOf, statusFrame, reads,
      Place.next, coursePlace]
  | ended p w e =>
      cases e <;>
        simp [Course.events, Ending.events, Ending.ran, Ending.status, Scheduler.notified, hcb,
          framesOf, statusFrame, orText, Option.filter, reads, Place.next, coursePlace,
          endingPlace]

/-- What is told beyond a course leads from its place to the place of the longer one. -/
theorem exec_place_of_course (requestId : String) {job : Job} (hcb : job.onStatus = true)
    {c c' : Course α} {l : List (Event α)} (h : c'.events job = c.events job ++ l) :
    Machine.exec Place.next (coursePlace c) (framesOf requestId l) = some (coursePlace c') := by
  have hwhole := reads_course requestId hcb c'
  rw [h, framesOf_append, reads, Machine.exec_append] at hwhole
  rwa [show Machine.exec Place.next .opened (framesOf requestId (c.events job)) =
    some (coursePlace c) from reads_course requestId hcb c, Option.bind_some] at hwhole

section Hearing

variable {payload : Option Json} {st st' st'' : Stream α} {id : ℕ} {l m : List (Event α)}

/-- What the events leave of a stream whose job has this number. -/
structure Heard (id : ℕ) (l : List (Event α)) (st st' : Stream α) : Prop where
  job : st'.job = st.job
  requestId : st'.requestId = st.requestId
  requestClosed : st'.requestClosed = st.requestClosed
  resumed : st'.resumed = st.resumed
  response : st'.response = st.response ++ framesOf st.requestId (life id l)
  settled : st'.settled.isSome = true ↔ st.settled.isSome = true ∨ 0 < settlements id l
  source : ∀ outcome p, st'.settled = some (outcome, p) →
    st.settled = some (outcome, p) ∨ Event.settle id outcome ∈ l

theorem heard_nil : Heard id [] st st where
  job := rfl
  requestId := rfl
  requestClosed := rfl
  resumed := rfl
  response := by simp [framesOf]
  settled := by simp
  source _ _ h := .inl h

theorem Heard.append (h : Heard id l st st') (h' : Heard id m st' st'') :
    Heard id (l ++ m) st st'' where
  job := h'.job.trans h.job
  requestId := h'.requestId.trans h.requestId
  requestClosed := h'.requestClosed.trans h.requestClosed
  resumed := h'.resumed.trans h.resumed
  response := by
    rw [h'.response, h.response, h.requestId, Scheduler.life_append, framesOf_append,
      List.append_assoc]
  settled := by
    have hpos : 0 < settlements id l + settlements id m ↔
        0 < settlements id l ∨ 0 < settlements id m := by
      omega
    rw [h'.settled, h.settled, Scheduler.settlements_append, hpos, or_assoc]
  source outcome p hs := by
    rcases h'.source outcome p hs with hold | hin
    · exact (h.source outcome p hold).imp_right (List.mem_append_left _)
    · exact .inr (List.mem_append_right _ hin)

/-- An event that changes nothing about the stream, and is not told to it. -/
theorem heard_quiet {e : Event α} (he : framesOf st.requestId (life id [e]) = [])
    (hs : settlements id [e] = 0) : Heard id [e] st st where
  job := rfl
  requestId := rfl
  requestClosed := rfl
  resumed := rfl
  response := by rw [he, List.append_nil]
  settled := by simp [hs]
  source _ _ h := .inl h

theorem heard_hear (hjob : st.job = some id) (e : Event α) :
    Heard id [e] st (st.hear payload e) := by
  cases e with
  | status j status =>
      by_cases hj : j = id
      · subst hj
        rw [Stream.hear, if_pos hjob]
        exact ⟨rfl, rfl, rfl, rfl, by simp [life, Event.about, framesOf], by simp [settlements,
          Event.settles], fun _ _ h => .inl h⟩
      · rw [Stream.hear, if_neg (by simp [hjob, Ne.symm hj])]
        exact heard_quiet (by simp [life, Event.about, hj, framesOf])
          (by simp [settlements, Event.settles])
  | settle j outcome =>
      by_cases hj : j = id
      · subst hj
        cases hs : st.settled with
        | none =>
            rw [Stream.hear, if_pos ⟨hjob, by simp [hs]⟩]
            refine ⟨rfl, rfl, rfl, rfl, by simp [framesOf], by simp, ?_⟩
            intro out p h
            cases h
            exact .inr List.mem_cons_self
        | some known =>
            rw [Stream.hear, if_neg (by simp [hs])]
            exact ⟨rfl, rfl, rfl, rfl, by simp [framesOf], by simp [hs], fun _ _ h => .inl h⟩
      · rw [Stream.hear, if_neg (by simp [hjob, Ne.symm hj])]
        exact heard_quiet (by simp [hj, framesOf]) (by simp [hj])
  | record j entry =>
      exact heard_quiet (by by_cases hj : j = id <;> simp [hj, framesOf]) (by simp)
  | execute j => exact heard_quiet (by simp [framesOf]) (by simp [settlements, Event.settles])
  | picked job before => exact heard_quiet (by simp [life, Event.about, framesOf]) (by simp)
  | expiring job before => exact heard_quiet (by simp [framesOf]) (by simp)

/-- A stream hears what concerns its own job, and nothing else. -/
theorem heard_foldl (payload : Option Json) (hjob : st.job = some id) (l : List (Event α)) :
    Heard id l st (l.foldl (Stream.hear payload) st) := by
  induction l generalizing st with
  | nil => exact heard_nil
  | cons e l ih =>
      have hfirst : Heard id [e] st (st.hear payload e) := heard_hear hjob e
      exact hfirst.append (ih (hfirst.job.trans hjob))

theorem foldl_hear_of_none (payload : Option Json) (hjob : st.job = none) (l : List (Event α)) :
    l.foldl (Stream.hear payload) st = st := by
  induction l with
  | nil => rfl
  | cons e l ih =>
      have hsame : st.hear payload e = st := by
        cases e <;> simp [Stream.hear, hjob]
      rw [List.foldl_cons, hsame, ih]

end Hearing

variable {o : Options} {clock : ℕ → ℤ} {numberText : List Utf8.CodeUnit → List Utf8.CodeUnit}

/-- The state is one that the scheduler reaches where no live id is reused. -/
def Reached (o : Options) (clock : ℕ → ℤ) (s : Scheduler.State α) : Prop :=
  ∃ as, Machine.Guarded (Scheduler.step o clock) NotReused (Scheduler.init o) as ∧
    Scheduler.exec o clock as = some s

theorem Reached.orderly {s : Scheduler.State α} (h : Reached o clock s) : Orderly s := by
  obtain ⟨as, hg, hs⟩ := h
  exact Scheduler.orderly_of_notReused hg hs

theorem Reached.step {s s' : Scheduler.State α} {a : Scheduler.Action α} (h : Reached o clock s)
    (hok : NotReused s a) (hs : Scheduler.step o clock s a = some s') : Reached o clock s' := by
  obtain ⟨as, hg, has⟩ := h
  refine ⟨as ++ [a], hg.snoc has hok, ?_⟩
  rw [Scheduler.exec, Machine.exec_snoc, show Machine.exec _ _ as = some s from has,
    Option.bind_some]
  exact hs

/-- How a stream stands to its job: its response has come to the place of the job's course, or
has been ended behind an ended course. -/
structure Follows (s : Scheduler.State α) (st : Stream α) (job : Job) (c : Course α) : Prop where
  known : job ∈ s.jobs
  told : job.onStatus = true
  course : life job.id s.trace = c.events job
  settled : st.settled.isSome = true ↔ c.isEnded = true
  source : ∀ outcome p, st.settled = some (outcome, p) → Event.settle job.id outcome ∈ s.trace
  resumed : st.resumed = true → c.isEnded = true
  place : reads st.response =
    some (if st.resumed = true ∧ st.requestClosed = false then .closed else coursePlace c)

/-- A stream follows its job, or it was turned away when it came. -/
inductive Fits (s : Scheduler.State α) (st : Stream α) : Prop
  | follows (job : Job) (c : Course α) (hjob : st.job = some job.id) (h : Follows s st job c)
  | refused (hjob : st.job = none) (hresumed : st.resumed = true)
      (hopen : st.requestClosed = false) (hplace : reads st.response = some .closed)

/-- A stream whose job has gone on has followed it. -/
theorem Follows.advance {s s' : Scheduler.State α} {st : Stream α} {job : Job} {c : Course α}
    (h : Follows s st job c) (hjob : st.job = some job.id) (hs' : Orderly s')
    {new : List (Event α)} (hnew : s'.trace = s.trace ++ new) (hjobs : s.jobs <+: s'.jobs)
    (payload : Option Json) :
    ∃ c', Follows s' (new.foldl (Stream.hear payload) st) job c' := by
  have hmem : job ∈ s'.jobs := hjobs.subset h.known
  obtain ⟨c', hc'⟩ := (hs'.phases job hmem).course
  have hheard : Heard job.id new st _ := heard_foldl payload hjob new
  have hgrown : c'.events job = c.events job ++ life job.id new := by
    rw [← hc', hnew, Scheduler.life_append, h.course]
  have hcount : settlements job.id new + (if c.isEnded then 1 else 0) =
      if c'.isEnded then 1 else 0 := by
    rw [← c.settlements_events job, ← c'.settlements_events job, hgrown,
      Scheduler.settlements_append, Scheduler.settlements_life]
    omega
  refine ⟨c', hmem, h.told, hc', ?_, ?_, ?_, ?_⟩
  · rw [hheard.settled, h.settled]
    cases hc : c.isEnded <;> cases hd : c'.isEnded <;> simp [hc, hd] at hcount ⊢ <;> omega
  · intro outcome p hp
    rw [hnew]
    rcases hheard.source outcome p hp with hold | hin
    · exact List.mem_append_left _ (h.source outcome p hold)
    · exact List.mem_append_right _ hin
  · intro hr
    rw [hheard.resumed] at hr
    have hend := h.resumed hr
    cases hd : c'.isEnded with
    | true => rfl
    | false => simp [hend, hd] at hcount
  · rw [hheard.response, reads, Machine.exec_append, hheard.resumed, hheard.requestClosed]
    rw [show Machine.exec Place.next .opened st.response = _ from h.place, Option.bind_some]
    by_cases hclosed : st.resumed = true ∧ st.requestClosed = false
    · rw [if_pos hclosed, if_pos hclosed]
      have hsame : c'.events job = c.events job :=
        Course.eq_of_prefix (h.resumed hclosed.1) (hgrown ▸ List.prefix_append _ _)
      rw [hsame] at hgrown
      rw [List.self_eq_append_right.mp hgrown]
      rfl
    · rw [if_neg hclosed, if_neg hclosed]
      exact exec_place_of_course st.requestId h.told hgrown

/-- The conditions of a run: no request enters the id of a job that is still live, and an
`execute` whose signal is aborted calls back no more, since its read is rejected. -/
def Proper (s : Shell α) : Action α → Prop
  | .other a => NotReused s.scheduler a
  | .stream q generated => NotReused s.scheduler (.enqueue (streamRequest q generated))
  | .onToken k _ =>
      ∀ r ∈ s.scheduler.runs[k]?, (s.scheduler.cells r.job.id).aborted = false
  | .onDone k _ =>
      ∀ r ∈ s.scheduler.runs[k]?, (s.scheduler.cells r.job.id).aborted = false
  | _ => True

instance decidableProper : (s : Shell α) → (a : Action α) → Decidable (Proper s a)
  | s, .other a => inferInstanceAs (Decidable (NotReused s.scheduler a))
  | s, .stream q generated =>
      inferInstanceAs (Decidable (NotReused s.scheduler (.enqueue (streamRequest q generated))))
  | s, .onToken k _ => inferInstanceAs (Decidable
      (∀ r ∈ s.scheduler.runs[k]?, (s.scheduler.cells r.job.id).aborted = false))
  | s, .onDone k _ => inferInstanceAs (Decidable
      (∀ r ∈ s.scheduler.runs[k]?, (s.scheduler.cells r.job.id).aborted = false))
  | _, .fail _ _ _ => isTrue trivial
  | _, .close _ => isTrue trivial
  | _, .resume _ => isTrue trivial

/-- The scheduler is in a reachable state, and every stream follows its job. -/
structure Kept (o : Options) (clock : ℕ → ℤ) (s : Shell α) : Prop where
  reached : Reached o clock s.scheduler
  fits : ∀ st ∈ s.streams, Fits s.scheduler st

theorem Fits.advance {s s' : Scheduler.State α} {st : Stream α} (h : Fits s st)
    (hs' : Orderly s') {new : List (Event α)} (hnew : s'.trace = s.trace ++ new)
    (hjobs : s.jobs <+: s'.jobs) (payload : Option Json) :
    Fits s' (new.foldl (Stream.hear payload) st) := by
  cases h with
  | follows job c hjob h =>
      obtain ⟨c', hc'⟩ := h.advance hjob hs' hnew hjobs payload
      exact .follows job c' ((heard_foldl payload hjob new).job.trans hjob) hc'
  | refused hjob hresumed hopen hplace =>
      rw [foldl_hear_of_none payload hjob]
      exact .refused hjob hresumed hopen hplace

theorem Kept.advance {s : Shell α} (h : Kept o clock s) {s' : Scheduler.State α}
    {a : Scheduler.Action α} (hok : NotReused s.scheduler a)
    (hs : Scheduler.step o clock s.scheduler a = some s') (payload : Option Json) :
    Kept o clock (s.advance s' payload) := by
  have hreached : Reached o clock s' := h.reached.step hok hs
  have hgrown := Scheduler.grown_of_step hs
  refine ⟨hreached, ?_⟩
  intro st hst
  obtain ⟨st₀, hst₀, rfl⟩ := List.mem_map.mp hst
  exact (h.fits st₀ hst₀).advance hreached.orderly
    (List.prefix_iff_eq_append.mp hgrown.trace).symm hgrown.jobs payload

/-- A request that is not refused becomes the next job. -/
theorem jobs_of_enqueue {s s' : Scheduler.State α} {req : Request}
    (hs : Scheduler.enqueue o clock s req = .ok s') :
    s.jobs ++ [Scheduler.newJob clock s req] <+: s'.jobs := by
  unfold Scheduler.enqueue at hs
  split at hs
  · cases hs
  · cases hs
    have hmore := (Scheduler.grown_kept o clock (Scheduler.accept o clock s req).trace
      (Scheduler.accept o clock s req).jobs).schedule Scheduler.kept_true trivial
      ⟨List.prefix_refl _, List.prefix_refl _⟩
    have haccept : (Scheduler.accept o clock s req).jobs =
        s.jobs ++ [Scheduler.newJob clock s req] :=
      congrArg Scheduler.State.jobs (Scheduler.accept_eq o clock s req)
    rw [← haccept]
    exact hmore.jobs

/-- A new stream has heard all there is to hear of its job. -/
theorem fits_new {s : Scheduler.State α} (h : Reached o clock s) {req : Request}
    (hcb : req.onStatus = true) {s' : Scheduler.State α}
    (hs : Scheduler.enqueue o clock s req = .ok s')
    (hok : NotReused s (.enqueue req)) :
    Fits s' ((s'.trace.drop s.trace.length).foldl (Stream.hear none)
      ({ requestId := req.requestId, job := some s.jobs.length } : Stream α)) := by
  have hstep : Scheduler.step o clock s (.enqueue req) = some s' := by
    simp only [Scheduler.step, hs]
  have hgrown := Scheduler.grown_of_step hstep
  have hnew : s'.trace = s.trace ++ s'.trace.drop s.trace.length :=
    (List.prefix_iff_eq_append.mp hgrown.trace).symm
  have hs' : Orderly s' := (h.step hok hstep).orderly
  have hmem : Scheduler.newJob clock s req ∈ s'.jobs :=
    (jobs_of_enqueue hs).subset (List.mem_append_right _ (List.mem_singleton_self _))
  obtain ⟨c, hc⟩ := (hs'.phases _ hmem).course
  have hlife : c.events (Scheduler.newJob clock s req) =
      life s.jobs.length (s'.trace.drop s.trace.length) := by
    rw [← hc]
    conv_lhs => rw [hnew]
    rw [Scheduler.life_append]
    change life s.jobs.length s.trace ++ _ = _
    rw [(h.orderly.unborn _ le_rfl).2, List.nil_append]
    rfl
  have hheard : Heard s.jobs.length (s'.trace.drop s.trace.length)
      ({ requestId := req.requestId, job := some s.jobs.length } : Stream α) _ :=
    heard_foldl none rfl _
  have hcount := c.settlements_events (Scheduler.newJob clock s req)
  rw [hlife] at hcount
  change settlements s.jobs.length _ = _ at hcount
  rw [Scheduler.settlements_life] at hcount
  refine .follows (Scheduler.newJob clock s req) c hheard.job ⟨hmem, hcb, hc, ?_, ?_, ?_, ?_⟩
  · rw [hheard.settled, hcount]
    cases c.isEnded <;> simp
  · intro outcome p hp
    rcases hheard.source outcome p hp with hold | hin
    · cases hold
    · exact List.mem_of_mem_drop hin
  · intro hr
    rw [hheard.resumed] at hr
    cases hr
  · rw [hheard.response, hheard.resumed, List.nil_append, if_neg (by simp), ← hlife]
    exact reads_course req.requestId hcb c

/-- The job of a call that runs and is not aborted is started. -/
theorem exists_started {s : Scheduler.State α} (h : Orderly s) {k : ℕ} {r : Scheduler.Run α}
    (hr : s.runs[k]? = some r) (hstage : r.stage = .running)
    (habort : (s.cells r.job.id).aborted = false) :
    ∃ p w, life r.job.id s.trace = (Course.started p w : Course α).events r.job := by
  have hcall : Scheduler.callsOf r.job s.runs k = some r := by
    simp [Scheduler.callsOf, hr, Option.filter]
  cases h.phases r.job (h.job_mem hr) with
  | waiting hw => simp [hw.calls] at hcall
  | dropped hd => simp [hd.calls] at hcall
  | started k' r' hjob hst =>
      have honly := hst.called.calls
      rw [hjob] at honly
      rw [honly, Scheduler.onlyCall] at hcall
      split at hcall
      · cases hcall
        cases hst with
        | isOpen ho => exact ho.life
        | answered ha => rcases ha.stage with ⟨hs, -⟩ | ⟨hs, -⟩ <;> simp [hstage] at hs
        | timedOut ht => simp [ht.cell] at habort
      · cases hcall

/-- Two courses that have shown the same are at the same place. -/
theorem place_of_events_eq {job : Job} (hcb : job.onStatus = true) {c c' : Course α}
    (h : c.events job = c'.events job) :
    coursePlace c = coursePlace c' ∧ c.isEnded = c'.isEnded := by
  constructor
  · have hread := reads_course job.requestId hcb c
    rw [h, reads_course job.requestId hcb c'] at hread
    exact (Option.some.inj hread).symm
  · have hcount := c.settlements_events job
    rw [h, c'.settlements_events job] at hcount
    cases hc : c.isEnded <;> cases hc' : c'.isEnded <;> simp [hc, hc'] at hcount ⊢

/-- What a running `execute` delivers finds the response where it is expected. -/
theorem Fits.write {s : Scheduler.State α} {st : Stream α} (h : Fits s st) (hs : Orderly s)
    {k : ℕ} {r : Scheduler.Run α} (hr : s.runs[k]? = some r) (hstage : r.stage = .running)
    (habort : (s.cells r.job.id).aborted = false) {frame : Frame}
    (hframe : Place.next .running frame = some .running) :
    Fits s (st.write r.job.id frame) := by
  cases h with
  | refused hjob hresumed hopen hplace =>
      rw [Stream.write, if_neg (by simp [hjob])]
      exact .refused hjob hresumed hopen hplace
  | follows job c hjob h =>
      by_cases hid : job.id = r.job.id
      · have hsame : job = r.job := hs.eq_of_id_eq h.known (hs.job_mem hr) hid
        subst hsame
        obtain ⟨p, w, hlife⟩ := exists_started hs hr hstage habort
        obtain ⟨hplace, hend⟩ := place_of_events_eq h.told (h.course.symm.trans hlife)
        have hopen : st.resumed = false := by
          cases hres : st.resumed with
          | false => rfl
          | true =>
              rw [h.resumed hres] at hend
              cases hend
        rw [Stream.write, if_pos hjob]
        refine .follows _ c hjob { h with place := ?_ }
        have hread := h.place
        rw [if_neg (by simp [hopen])] at hread ⊢
        rw [reads, Machine.exec_append, show Machine.exec _ _ st.response = _ from hread, hplace]
        simp [coursePlace, hframe]
      · rw [Stream.write, if_neg (by simp [hjob, hid])]
        exact .follows job c hjob h

/-- An ended course settles the promise as its ending says. -/
theorem eq_settlement_of_mem {job : Job} {p : ℤ} {w : ℚ} {e : Ending α} {outcome : Settlement α}
    (h : Event.settle job.id outcome ∈ (Course.ended p w e).events job) :
    outcome = e.settlement job := by
  rw [Course.events_ended, List.mem_append] at h
  rcases h with hin | hin
  · have hpos : 0 < settlements job.id (Course.announced job p w e) :=
      List.countP_pos_iff.mpr ⟨_, hin, by simp [Event.settles]⟩
    rw [Course.settlements_announced] at hpos
    exact absurd hpos (lt_irrefl _)
  · simpa using hin

/-- The end of a response is written where its place allows it. -/
theorem Follows.resume {s : Scheduler.State α} {st : Stream α} {job : Job} {c : Course α}
    (h : Follows s st job c) (hres : st.resumed = false) {outcome : Settlement α}
    {payload : Option Json} (hset : st.settled = some (outcome, payload)) :
    Follows s (st.resume numberText outcome payload) job c := by
  have hend : c.isEnded = true := h.settled.mp (by simp [hset])
  have hread := h.place
  rw [if_neg (by simp [hres])] at hread
  refine { h with resumed := fun _ => hend, place := ?_ }
  rw [Stream.resume, reads, Machine.exec_append, show Machine.exec _ _ st.response = _ from hread,
    Option.bind_some]
  cases hclosed : st.requestClosed with
  | true => cases outcome <;> simp [Stream.ending, hclosed]
  | false =>
      have hin : Event.settle job.id outcome ∈ c.events job := by
        rw [← h.course]
        exact List.mem_filter.mpr ⟨h.source outcome payload hset, by simp [Event.about]⟩
      obtain ⟨p, w, e, rfl⟩ : ∃ p w e, c = .ended p w e := by
        cases c with
        | waiting p w => cases hend
        | started p w => cases hend
        | ended p w e => exact ⟨p, w, e, rfl⟩
      obtain rfl := eq_settlement_of_mem hin
      cases e <;>
        simp [Stream.ending, hclosed, Ending.settlement, coursePlace, endingPlace, Place.next]

theorem mem_edit {s : Shell α} {i : ℕ} {f : Stream α → Stream α} {st : Stream α}
    (h : st ∈ (s.edit i f).streams) : st ∈ s.streams ∨ ∃ st₀, s.streams[i]? = some st₀ ∧ st = f st₀ := by
  obtain ⟨j, hj⟩ := List.mem_iff_getElem?.mp h
  rw [Shell.edit, List.getElem?_modify] at hj
  cases hi : s.streams[j]? with
  | none => simp [hi] at hj
  | some st₀ =>
      simp only [hi, Option.map_eq_map, Option.map_some, Option.some.injEq] at hj
      by_cases hij : i = j
      · rw [if_pos hij] at hj
        exact .inr ⟨st₀, hij ▸ hi, hj.symm⟩
      · rw [if_neg hij] at hj
        exact .inl (hj ▸ List.mem_of_getElem? hi)

namespace Kept

variable {s : Shell α}

/-- A change of the streams alone, which leaves each where its job is. -/
theorem of_streams (h : Kept o clock s) {streams : List (Stream α)}
    (hfits : ∀ st ∈ streams, Fits s.scheduler st) :
    Kept o clock { s with streams := streams } :=
  ⟨h.reached, hfits⟩

theorem stream (h : Kept o clock s) (q : StreamQuery) (generated : String)
    (hok : NotReused s.scheduler (.enqueue (streamRequest q generated))) :
    Kept o clock (s.stream numberText o clock q generated) := by
  unfold Shell.stream
  split
  · exact h
  · dsimp only
    split
    · rename_i err herr
      apply h.of_streams
      intro st hst
      rcases List.mem_append.mp hst with hold | hnew
      · exact h.fits st hold
      · rw [List.mem_singleton] at hnew
        subst hnew
        exact .refused rfl rfl rfl rfl
    · rename_i scheduler hacc
      have hstep : Scheduler.step o clock s.scheduler (.enqueue (streamRequest q generated)) =
          some scheduler := by
        simp only [Scheduler.step, hacc]
      have hrest : Kept o clock (s.advance scheduler none) := h.advance hok hstep none
      refine ⟨hrest.reached, ?_⟩
      intro st hst
      rw [Shell.advance, Shell.add, List.map_append, List.mem_append] at hst
      rcases hst with hold | hnew
      · exact hrest.fits st hold
      · rw [List.map_singleton, List.mem_singleton] at hnew
        subst hnew
        exact fits_new h.reached rfl hacc hok

theorem close (h : Kept o clock s) {i : ℕ} {st : Stream α} (hi : s.streams[i]? = some st) :
    Kept o clock (s.close o clock i st) := by
  unfold Shell.close
  split
  · exact h
  · rename_i hres
    have hopen : st.resumed = false := by simpa using hres
    have hedit : Kept o clock (s.edit i fun st => { st with requestClosed := true }) := by
      apply h.of_streams
      intro st' hst'
      rcases mem_edit hst' with hold | ⟨st₀, hst₀, rfl⟩
      · exact h.fits st' hold
      · obtain rfl := Option.some.inj (hi.symm.trans hst₀)
        cases h.fits st (List.mem_of_getElem? hi) with
        | refused _ hresumed _ _ =>
            rw [hopen] at hresumed
            cases hresumed
        | follows job c hjob hf =>
            refine .follows job c hjob { hf with place := ?_ }
            have hread := hf.place
            rw [if_neg (by simp [hopen])] at hread
            rw [if_neg (by simp)]
            exact hread
    have hstep : Scheduler.step o clock s.scheduler (.cancel st.requestId) =
        some (Scheduler.cancel o clock s.scheduler st.requestId).1 := rfl
    exact hedit.advance (a := .cancel st.requestId) trivial hstep none

theorem resume (h : Kept o clock s) {i : ℕ} {st : Stream α} (hi : s.streams[i]? = some st)
    {outcome : Settlement α} {payload : Option Json} (hset : st.settled = some (outcome, payload))
    (hres : st.resumed = false) :
    Kept o clock (s.edit i fun st => st.resume numberText outcome payload) := by
  apply h.of_streams
  intro st' hst'
  rcases mem_edit hst' with hold | ⟨st₀, hst₀, rfl⟩
  · exact h.fits st' hold
  · obtain rfl := Option.some.inj (hi.symm.trans hst₀)
    cases h.fits st (List.mem_of_getElem? hi) with
    | refused _ hresumed _ _ =>
        rw [hres] at hresumed
        cases hresumed
    | follows job c hjob hf => exact .follows job c hjob (hf.resume hres hset)

theorem write (h : Kept o clock s) {k : ℕ} {r : Scheduler.Run α}
    (hr : s.scheduler.runs[k]? = some r) (hstage : r.stage = .running)
    (habort : (s.scheduler.cells r.job.id).aborted = false) {frame : Frame}
    (hframe : Place.next .running frame = some .running) :
    Kept o clock { s with streams := s.streams.map (Stream.write r.job.id frame) } := by
  apply h.of_streams
  intro st hst
  obtain ⟨st₀, hst₀, rfl⟩ := List.mem_map.mp hst
  exact (h.fits st₀ hst₀).write h.reached.orderly hr hstage habort hframe

/-- No proper step leaves a stream behind its job. -/
theorem step (h : Kept o clock s) {a : Action α} (hok : Proper s a) {s' : Shell α}
    (hs : step numberText o clock s a = some s') : Kept o clock s' := by
  cases a with
  | other a =>
      obtain ⟨scheduler, hstep, rfl⟩ := Option.map_eq_some_iff.mp hs
      exact h.advance hok hstep _
  | stream q generated =>
      cases hs
      exact h.stream q generated hok
  | fail k message payload =>
      obtain ⟨scheduler, hstep, rfl⟩ := Option.map_eq_some_iff.mp hs
      have hnext := h.advance (a := .settleExecute k (.error (.error message))) trivial hstep none
      exact ⟨hnext.reached, hnext.fits⟩
  | onToken k payload =>
      simp only [ShellApp.step] at hs
      split at hs
      · rename_i hr
        cases hs
        exact h.write hr rfl (hok _ hr) rfl
      · cases hs
  | onDone k payload =>
      simp only [ShellApp.step] at hs
      split at hs
      · rename_i hr
        cases hs
        exact h.write hr rfl (hok _ hr) rfl
      · cases hs
  | close i =>
      obtain ⟨st, hst, rfl⟩ := Option.map_eq_some_iff.mp hs
      exact h.close hst
  | resume i =>
      simp only [ShellApp.step] at hs
      split at hs
      · rename_i st hst
        split at hs
        · rename_i outcome payload hset
          split at hs
          · cases hs
          · rename_i hres
            cases hs
            exact h.resume hst hset (by simpa using hres)
        · cases hs
      · cases hs

theorem start_of_run : Kept o clock (start o : Shell α) where
  reached := ⟨[], Machine.guarded_nil, rfl⟩
  fits st hst := by cases hst

end Kept

theorem coursePlace_ne (c : Course α) : coursePlace c ≠ .failed ∧ coursePlace c ≠ .closed := by
  cases c with
  | waiting p w => exact ⟨by simp [coursePlace], by simp [coursePlace]⟩
  | started p w => exact ⟨by simp [coursePlace], by simp [coursePlace]⟩
  | ended p w e => cases e <;> exact ⟨by simp [coursePlace, endingPlace], by
      simp [coursePlace, endingPlace]⟩

theorem kept_of_run {as : List (Action α)} {s : Shell α}
    (hg : Machine.Guarded (step numberText o clock) Proper (start o) as)
    (h : Machine.exec (step numberText o clock) (start o) as = some s) : Kept o clock s :=
  hg.invariant Kept.start_of_run (fun _ _ _ ht hok hs => ht.step hok hs) h

/-- A stream that fits is at a place of the automaton, and an error is followed by the end. -/
theorem Fits.order {s : Scheduler.State α} {st : Stream α} (h : Fits s st) :
    ∃ place, reads st.response = some place ∧
      place ≠ .failed ∧ (place = .closed ↔ st.resumed = true ∧ st.requestClosed = false) := by
  cases h with
  | refused hjob hresumed hopen hplace =>
      exact ⟨.closed, hplace, by simp, by simp [hresumed, hopen]⟩
  | follows job c hjob hf =>
      refine ⟨_, hf.place, ?_⟩
      split
      · rename_i hclosed
        simp [hclosed]
      · rename_i hclosed
        obtain ⟨hfailed, hend⟩ := coursePlace_ne c
        simp [hfailed, hend, hclosed]

/-- Whatever the requests, timers, answers and disconnections, the events of each response come
in the order that the automaton reads: queued, then started or the end of the wait, tokens only
between the start and its end, an execution timeout before its error, and the end last, right
behind an error. The response is ended exactly where the route has resumed on a connection that
was still open. -/
theorem stream_frames_in_order {as : List (Action α)} {s : Shell α}
    (hg : Machine.Guarded (step numberText o clock) Proper (start o) as)
    (h : Machine.exec (step numberText o clock) (start o) as = some s) {st : Stream α}
    (hst : st ∈ s.streams) :
    ∃ place, Machine.exec Place.next .opened st.response = some place ∧
      place ≠ .failed ∧ (place = .closed ↔ st.resumed = true ∧ st.requestClosed = false) :=
  ((kept_of_run hg h).fits st hst).order

/-- A request that is started, delivers a token and runs into its execution timeout. -/
def overdueStream : List (Action ℕ) :=
  [.stream { prompt := some (Json.units "hi"), requestId := some "r" } "g",
    .other (.callExecute 0), .onToken 0 .null, .other (.execTimer 0), .resume 0]

theorem stream_frames_in_order_overdueStream :
    ∃ s, Machine.exec (step id {} fun _ => 0) (start {}) overdueStream = some s ∧
      ∀ st ∈ s.streams, ∃ place, Machine.exec Place.next .opened st.response = some place ∧
        place ≠ .failed ∧
        (place = .closed ↔ st.resumed = true ∧ st.requestClosed = false) := by
  obtain ⟨s, hs⟩ := Option.isSome_iff_exists.mp
    (show (Machine.exec (step id {} fun _ => 0) (start {}) overdueStream).isSome = true by
      decide +kernel)
  have hg : Machine.Guarded (step id {} fun _ => 0) Proper (start {}) overdueStream := by
    decide +kernel
  exact ⟨s, hs, fun st hst => stream_frames_in_order hg hs hst⟩

end ServeInfer.ShellApp
