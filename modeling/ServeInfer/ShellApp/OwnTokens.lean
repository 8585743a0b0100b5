import Mathlib.Data.List.ReduceOption
import ServeInfer.ShellApp.FrameOrder

/-!
# Whose tokens a response carries

An `execute` hands tokens and done events over to the response of the job it was called for.
Every call of `_run` keeps its job and every response its own, so that a response has what was
handed over for its job, in the order it was handed over, and nothing else.
-/

namespace ServeInfer.ShellApp

open Scheduler (Status Settlement Event Options Job Shape)

variable {α : Type}

/-- An event that an `execute` has handed over. -/
def Frame.carried : Frame → Bool
  | .token _ => true
  | .done _ => true
  | _ => false

/-- The token and done events of a response. -/
def Stream.carried (st : Stream α) : List Frame := st.response.filter Frame.carried

/-- The call of `_run` that an action speaks for, and what it hands over. -/
def Action.handed : Action α → Option (ℕ × Frame)
  | .onToken k payload => some (k, .token payload)
  | .onDone k payload => some (k, .done payload)
  | _ => none

/-- What an action hands over for a job; `calls` are the jobs of the calls of `_run`. A request
that was refused has no job. -/
def Action.handedFor (calls : List Job) (job : Option ℕ) (a : Action α) : Option Frame :=
  a.handed.bind fun e => if (calls[e.1]?).any (fun called => some called.id = job) then some e.2
    else none

/-- What a run hands over for a job. -/
def handedOver (calls : List Job) (job : Option ℕ) (as : List (Action α)) : List Frame :=
  as.filterMap (Action.handedFor calls job)

theorem handedOver_snoc (calls : List Job) (job : Option ℕ) (as : List (Action α))
    (a : Action α) : handedOver calls job (as ++ [a]) =
      handedOver calls job as ++ (a.handedFor calls job).toList := by
  rw [handedOver, List.filterMap_append]
  cases h : a.handedFor calls job <;> simp [handedOver, h]

theorem handedOver_none (calls : List Job) (as : List (Action α)) :
    handedOver calls none as = [] := by
  rw [handedOver, List.filterMap_eq_nil_iff]
  intro a _
  cases h : a.handed with
  | none => simp [Action.handedFor, h]
  | some e => simp [Action.handedFor, h]

/-- What the `k`-th call hands over is for its own job. -/
theorem handedFor_of_call {calls : List Job} {job : Option ℕ} {a : Action α} {k : ℕ}
    {called : Job} {frame : Frame} (ha : a.handed = some (k, frame))
    (hk : calls[k]? = some called) :
    a.handedFor calls job = if some called.id = job then some frame else none := by
  simp [Action.handedFor, ha, hk]

section Calls

variable {o : Options} {clock : ℕ → ℤ} {s s' : Scheduler.State α}

/-- The jobs of the calls of `_run`. -/
def callJobs (s : Scheduler.State α) : List Job := s.runs.map Scheduler.Run.job

theorem callJobs_congr {calls : List Job} (h : calls <+: callJobs s)
    (heq : callJobs s' = callJobs s) : calls <+: callJobs s' := by
  rwa [heq]

/-- No move takes a call away, or gives it another job. -/
theorem calls_kept (o : Options) (clock : ℕ → ℤ) (calls : List Job) :
    Scheduler.Kept o clock fun s : Scheduler.State α => calls <+: callJobs s where
  stay _ h := h
  tick _ h := h
  start job _ h _ _ := by
    rw [Scheduler.startPicked_eq, callJobs, List.map_append]
    exact h.trans (List.prefix_append _ _)
  accept req _ h _ := by
    rw [Scheduler.accept_eq]
    exact h
  disarm _ _ _ h _ _ _ _ := h
  expire _ job _ h _ _ _ _ := by
    rw [Scheduler.expireQueued_eq]
    exact h
  cancelQueued _ job _ h _ := by
    rw [Scheduler.cancelQueued_eq, callJobs, Scheduler.map_job_clearedRuns]
    exact h
  abort _ _ _ h _ := h
  timeOut k r _ h _ _ _ _ := by
    rw [Scheduler.timeOut_eq]
    exact callJobs_congr h (by simp [callJobs])
  timeOutFree k r _ h _ _ _ _ := by
    rw [Scheduler.freeSlot_eq, Scheduler.timeOut_eq]
    exact callJobs_congr h (by simp [callJobs])
  call _ _ _ h _ _ := callJobs_congr h (by
    simp [callJobs, Scheduler.State.setRun, Scheduler.State.log])
  settle _ _ _ _ h _ _ := callJobs_congr h (by simp [callJobs, Scheduler.State.setRun])
  react k r result _ h _ _ ht := by
    rw [Scheduler.react_eq o clock ht]
    exact callJobs_congr h (by simp [callJobs])
  reactLate _ _ _ _ h _ _ _ := callJobs_congr h (by simp [callJobs, Scheduler.State.setRun])
  finish _ _ _ h _ _ _ := callJobs_congr h (by simp [callJobs, Scheduler.State.setRun])
  finishFree k r _ h _ _ _ := by
    rw [Scheduler.freeSlot_eq]
    exact callJobs_congr h (by simp [callJobs, Scheduler.State.setRun])

theorem callJobs_of_step {a : Scheduler.Action α} (h : Scheduler.step o clock s a = some s') :
    callJobs s <+: callJobs s' :=
  (calls_kept o clock (callJobs s)).step Scheduler.kept_true trivial (List.prefix_refl _) h

end Calls

section Views

variable {numberText : List Utf8.CodeUnit → List Utf8.CodeUnit}

/-- The job of a response, and what it has been handed. -/
def Stream.view (st : Stream α) : Option ℕ × List Frame := (st.job, st.carried)

def Shell.views (s : Shell α) : List (Option ℕ × List Frame) := s.streams.map Stream.view

/-- The jobs of the responses. -/
def jobsOf (views : List (Option ℕ × List Frame)) : List ℕ := (views.map Prod.fst).reduceOption

theorem carried_statusFrame (requestId : String) (status : Status) :
    (statusFrame requestId status).carried = false := by
  cases status <;> rfl

theorem view_hear (payload : Option Json) (st : Stream α) (e : Event α) :
    (st.hear payload e).view = st.view := by
  cases e with
  | status id status =>
      rw [Stream.hear]
      split
      · simp [Stream.view, Stream.carried, carried_statusFrame]
      · rfl
  | settle id outcome =>
      rw [Stream.hear]
      split <;> rfl
  | picked job before => rfl
  | expiring job before => rfl
  | execute id => rfl
  | record id entry => rfl

theorem view_foldl_hear (payload : Option Json) (l : List (Event α)) (st : Stream α) :
    (l.foldl (Stream.hear payload) st).view = st.view := by
  induction l generalizing st with
  | nil => rfl
  | cons e l ih => rw [List.foldl_cons, ih, view_hear]

theorem view_resume (st : Stream α) (outcome : Settlement α) (payload : Option Json) :
    (st.resume numberText outcome payload).view = st.view := by
  cases outcome <;> cases hclosed : st.requestClosed <;>
    simp [Stream.resume, Stream.view, Stream.carried, Stream.ending, hclosed, Frame.carried]

/-- A write reaches the responses of its job only. -/
theorem view_write (id : ℕ) {frame : Frame} (hframe : frame.carried = true) (st : Stream α) :
    (st.write id frame).view =
      (st.job, st.carried ++ if some id = st.job then [frame] else []) := by
  rw [Stream.write]
  by_cases hid : st.job = some id
  · simp [hid, Stream.view, Stream.carried, hframe]
  · simp [hid, Ne.symm hid, Stream.view]

theorem views_advance (s : Shell α) (scheduler : Scheduler.State α) (payload : Option Json) :
    (s.advance scheduler payload).views = s.views := by
  rw [Shell.views, Shell.advance, List.map_map]
  exact List.map_congr_left fun st _ => view_foldl_hear payload _ st

/-- What is told reaches a response that was just opened as it reaches the others. -/
theorem advance_add (s : Shell α) (st : Stream α) (scheduler : Scheduler.State α)
    (payload : Option Json) : (s.add st).advance scheduler payload =
      (s.advance scheduler payload).add
        ((scheduler.trace.drop s.scheduler.trace.length).foldl (Stream.hear payload) st) := by
  simp [Shell.advance, Shell.add]

theorem views_edit (s : Shell α) (i : ℕ) {f : Stream α → Stream α}
    (hf : ∀ st, (f st).view = st.view) : (s.edit i f).views = s.views := by
  refine List.ext_getElem? fun j => ?_
  rw [Shell.views, Shell.views, Shell.edit, List.getElem?_map, List.getElem?_map,
    List.getElem?_modify]
  cases s.streams[j]? with
  | none => rfl
  | some st => by_cases hij : i = j <;> simp [hij, hf]

end Views

section Runs

variable {o : Options} {clock : ℕ → ℤ} {numberText : List Utf8.CodeUnit → List Utf8.CodeUnit}
  {s s' : Shell α} {as : List (Action α)} {a : Action α}

/-- Every response has what was handed over for its job, whatever calls are still to come, and
nothing was handed over for a job that is still to come. -/
structure OwnTokens (as : List (Action α)) (s : Shell α) : Prop where
  shape : Shape s.scheduler
  born : ∀ view ∈ s.views, ∀ id ∈ view.1, id < s.scheduler.jobs.length
  apart : (jobsOf s.views).Nodup
  carried : ∀ calls, callJobs s.scheduler <+: calls → ∀ view ∈ s.views,
    view.2 = handedOver calls view.1 as
  unborn : ∀ calls, callJobs s.scheduler <+: calls → ∀ id, s.scheduler.jobs.length ≤ id →
    handedOver calls (some id) as = []

namespace OwnTokens

theorem start_of_run (o : Options) : OwnTokens [] (start o : Shell α) where
  shape := Shape.start_of_run o
  born view hview := by cases hview
  apart := List.nodup_nil
  carried _ _ view hview := by cases hview
  unborn _ _ _ _ := rfl

theorem handedOver_of_quiet (hquiet : a.handed = none) (calls : List Job) (job : Option ℕ) :
    handedOver calls job (as ++ [a]) = handedOver calls job as := by
  rw [handedOver_snoc, Action.handedFor, hquiet]
  exact List.append_nil _

/-- The scheduler goes on, and nothing is handed over. -/
theorem quiet (h : OwnTokens as s) (hquiet : a.handed = none) (hshape : Shape s'.scheduler)
    (hcalls : callJobs s.scheduler <+: callJobs s'.scheduler)
    (hjobs : s.scheduler.jobs <+: s'.scheduler.jobs) (hviews : s'.views = s.views) :
    OwnTokens (as ++ [a]) s' := by
  refine ⟨hshape, ?_, ?_, ?_, ?_⟩
  · intro view hview id hid
    rw [hviews] at hview
    exact (h.born view hview id hid).trans_le hjobs.length_le
  · rw [hviews]
    exact h.apart
  · intro calls hprefix view hview
    rw [hviews] at hview
    rw [handedOver_of_quiet hquiet]
    exact h.carried calls (hcalls.trans hprefix) view hview
  · intro calls hprefix id hid
    rw [handedOver_of_quiet hquiet]
    exact h.unborn calls (hcalls.trans hprefix) id (hjobs.length_le.trans hid)

/-- A step of the scheduler. -/
theorem advance (h : OwnTokens as s) (hquiet : a.handed = none) {b : Scheduler.Action α}
    {scheduler : Scheduler.State α} (hs : Scheduler.step o clock s.scheduler b = some scheduler)
    (hnext : s'.scheduler = scheduler) (hviews : s'.views = s.views) :
    OwnTokens (as ++ [a]) s' := by
  subst hnext
  exact h.quiet hquiet ((Shape.kept o clock).step Scheduler.kept_true trivial h.shape hs)
    (callJobs_of_step hs) (Scheduler.grown_of_step hs).jobs hviews

/-- A call of `_run` hands something over. -/
theorem write (h : OwnTokens as s) {k : ℕ} {r : Scheduler.Run α} {frame : Frame}
    (hr : s.scheduler.runs[k]? = some r) (ha : a.handed = some (k, frame))
    (hframe : frame.carried = true) :
    OwnTokens (as ++ [a]) { s with streams := s.streams.map (Stream.write r.job.id frame) } := by
  have hcall : ∀ calls, callJobs s.scheduler <+: calls → calls[k]? = some r.job := by
    intro calls hprefix
    have hin : (callJobs s.scheduler)[k]? = some r.job := by
      rw [callJobs, List.getElem?_map, hr, Option.map_some]
    exact (List.prefix_iff_getElem?.mp hprefix k (List.getElem?_eq_some_iff.mp hin).1).trans
      (List.getElem?_eq_getElem _ ▸ hin)
  have hview : ∀ view ∈ ({ s with streams := s.streams.map (Stream.write r.job.id frame) } :
      Shell α).views, ∃ st ∈ s.streams,
        view = (st.job, st.carried ++ if some r.job.id = st.job then [frame] else []) := by
    intro view hin
    rw [Shell.views, List.map_map] at hin
    obtain ⟨st, hst, rfl⟩ := List.mem_map.mp hin
    exact ⟨st, hst, view_write r.job.id hframe st⟩
  refine ⟨h.shape, ?_, ?_, ?_, ?_⟩
  · intro view hin id hid
    obtain ⟨st, hst, rfl⟩ := hview view hin
    exact h.born st.view (List.mem_map_of_mem hst) id hid
  · have hsame : (Shell.views { s with streams := s.streams.map (Stream.write r.job.id frame) }).map
        Prod.fst = s.views.map Prod.fst := by
      rw [Shell.views, Shell.views, List.map_map, List.map_map, List.map_map]
      refine List.map_congr_left fun st _ => ?_
      rw [Function.comp_apply, Function.comp_apply, view_write r.job.id hframe]
      rfl
    rw [jobsOf, hsame]
    exact h.apart
  · intro calls hprefix view hin
    obtain ⟨st, hst, rfl⟩ := hview view hin
    have hbefore : st.carried = handedOver calls st.job as :=
      h.carried calls hprefix st.view (List.mem_map_of_mem hst)
    rw [handedOver_snoc, handedFor_of_call ha (hcall calls hprefix), hbefore]
    by_cases hjob : some r.job.id = st.job <;> simp [hjob]
  · intro calls hprefix id hid
    have hlt : r.job.id < s.scheduler.jobs.length := h.shape.id_lt (h.shape.job_mem hr)
    rw [handedOver_snoc, handedFor_of_call ha (hcall calls hprefix), h.unborn calls hprefix id hid,
      if_neg (by simp [(hlt.trans_le hid).ne])]
    rfl

/-- A response is opened, and nothing was handed over for its job. -/
theorem add (h : OwnTokens as s) {st : Stream α} (job : Option ℕ) (hview : st.view = (job, []))
    (hborn : ∀ id ∈ job, id < s.scheduler.jobs.length ∧ id ∉ jobsOf s.views)
    (hnone : ∀ calls, callJobs s.scheduler <+: calls → handedOver calls job as = []) :
    OwnTokens as (s.add st) := by
  have hviews : (s.add st).views = s.views ++ [(job, [])] := by
    rw [Shell.views, Shell.add, List.map_append, ← hview]
    rfl
  refine ⟨h.shape, ?_, ?_, ?_, h.unborn⟩
  · intro view hin id hid
    rw [hviews, List.mem_append, List.mem_singleton] at hin
    rcases hin with hold | rfl
    · exact h.born view hold id hid
    · exact (hborn id hid).1
  · rw [hviews, jobsOf, List.map_append, List.reduceOption_append]
    cases job with
    | none => simpa [jobsOf] using h.apart
    | some id =>
        have hfresh : id ∉ jobsOf s.views := (hborn id rfl).2
        refine List.Nodup.append h.apart (List.nodup_singleton id) ?_
        exact List.disjoint_singleton.mpr hfresh
  · intro calls hprefix view hin
    rw [hviews, List.mem_append, List.mem_singleton] at hin
    rcases hin with hold | rfl
    · exact h.carried calls hprefix view hold
    · exact (hnone calls hprefix).symm

theorem mem_of_mem_jobsOf {views : List (Option ℕ × List Frame)} {id : ℕ}
    (h : id ∈ jobsOf views) : ∃ view ∈ views, view.1 = some id := by
  obtain ⟨view, hview, heq⟩ := List.mem_map.mp (List.reduceOption_mem_iff.mp h)
  exact ⟨view, hview, heq⟩

/-- The route, up to its `await`. -/
theorem stream (h : OwnTokens as s) (q : StreamQuery) (generated : String) :
    OwnTokens (as ++ [.stream q generated]) (s.stream numberText o clock q generated) := by
  have hstay : OwnTokens (as ++ [.stream q generated]) s :=
    h.quiet rfl h.shape List.prefix_rfl List.prefix_rfl rfl
  unfold Shell.stream
  split
  · exact hstay
  · dsimp only
    split
    · exact hstay.add none rfl (by simp) fun calls _ => handedOver_none calls _
    · rename_i scheduler hacc
      have hstep : Scheduler.step o clock s.scheduler (.enqueue (streamRequest q generated)) =
          some scheduler := by
        simp only [Scheduler.step, hacc]
      have hon : OwnTokens (as ++ [.stream q generated]) (s.advance scheduler none) :=
        h.advance rfl hstep rfl (views_advance s scheduler none)
      have hjobs : (s.scheduler.jobs ++ [_]).length ≤ scheduler.jobs.length :=
        (jobs_of_enqueue hacc).length_le
      rw [List.length_append, List.length_singleton] at hjobs
      rw [advance_add]
      refine hon.add (some s.scheduler.jobs.length) (view_foldl_hear none _ _) ?_ ?_
      · rintro id ⟨⟩
        refine ⟨hjobs, fun hin => ?_⟩
        rw [views_advance] at hin
        obtain ⟨view, hview, heq⟩ := mem_of_mem_jobsOf hin
        exact absurd (h.born view hview _ heq) (lt_irrefl _)
      · intro calls hprefix
        rw [handedOver_of_quiet rfl]
        exact h.unborn calls ((callJobs_of_step hstep).trans hprefix) _ le_rfl

theorem close (h : OwnTokens as s) (i : ℕ) (st : Stream α) :
    OwnTokens (as ++ [.close i]) (s.close o clock i st) := by
  unfold Shell.close
  split
  · exact h.quiet rfl h.shape List.prefix_rfl List.prefix_rfl rfl
  · have hstep : Scheduler.step o clock s.scheduler (.cancel st.requestId) =
        some (Scheduler.cancel o clock s.scheduler st.requestId).1 := rfl
    refine h.advance rfl hstep rfl ?_
    rw [views_advance]
    exact views_edit s i fun _ => rfl

/-- One case for each action. -/
theorem step (h : OwnTokens as s) (hs : step numberText o clock s a = some s') :
    OwnTokens (as ++ [a]) s' := by
  cases a with
  | other a =>
      obtain ⟨scheduler, hstep, rfl⟩ := Option.map_eq_some_iff.mp hs
      exact h.advance rfl hstep rfl (views_advance _ _ _)
  | stream q generated =>
      cases hs
      exact h.stream q generated
  | fail k message payload =>
      obtain ⟨scheduler, hstep, rfl⟩ := Option.map_eq_some_iff.mp hs
      exact h.advance rfl hstep rfl (views_advance s scheduler none)
  | onToken k payload =>
      simp only [ShellApp.step] at hs
      split at hs
      · rename_i hr
        cases hs
        exact h.write hr rfl rfl
      · cases hs
  | onDone k payload =>
      simp only [ShellApp.step] at hs
      split at hs
      · rename_i hr
        cases hs
        exact h.write hr rfl rfl
      · cases hs
  | close i =>
      obtain ⟨st, hst, rfl⟩ := Option.map_eq_some_iff.mp hs
      exact h.close i st
  | resume i =>
      simp only [ShellApp.step] at hs
      split at hs
      · split at hs
        · rename_i outcome payload hset
          split at hs
          · cases hs
          · cases hs
            exact h.quiet rfl h.shape List.prefix_rfl List.prefix_rfl
              (views_edit s i fun st => view_resume st outcome payload)
        · cases hs
      · cases hs

end OwnTokens

/-- Along a run, responses keep to what was handed over for their jobs. -/
theorem ownTokens_of_run (h : Machine.exec (step numberText o clock) (start o) as = some s) :
    OwnTokens as s := by
  induction as using List.reverseRecOn generalizing s with
  | nil =>
      cases h
      exact .start_of_run o
  | append_singleton as a ih =>
      rw [Machine.exec_snoc] at h
      obtain ⟨t, ht, hta⟩ := Option.bind_eq_some_iff.mp h
      exact (ih ht).step hta

/-- Whatever the requests, timers, answers and disconnections, the token and done events of each
response are those that `execute` has handed over for its own job, each once and in their order;
and no two responses have one job. -/
theorem responses_carry_own_tokens
    (h : Machine.exec (step numberText o clock) (start o) as = some s) :
    (s.streams.filterMap Stream.job).Nodup ∧
      ∀ st ∈ s.streams, st.carried = handedOver (callJobs s.scheduler) st.job as := by
  have hown : OwnTokens as s := ownTokens_of_run h
  constructor
  · have hjobs : jobsOf s.views = s.streams.filterMap Stream.job := by
      rw [jobsOf, Shell.views, List.map_map, List.reduceOption, List.filterMap_map]
      rfl
    exact hjobs ▸ hown.apart
  · intro st hst
    exact hown.carried _ List.prefix_rfl st.view (List.mem_map_of_mem hst)

/-- Two requests whose `execute` calls take turns. -/
def interleavedTokens : List (Action ℕ) :=
  [.stream { prompt := some (Json.units "hi"), requestId := some "r" } "g",
    .stream { prompt := some (Json.units "ho"), requestId := some "q" } "g",
    .other (.callExecute 0), .other (.callExecute 1), .onToken 1 (.bool true), .onToken 0 .null,
    .onDone 0 .null]

theorem responses_carry_own_tokens_interleavedTokens :
    ∃ s, Machine.exec (ShellApp.step id {} fun _ => 0) (start {}) interleavedTokens = some s ∧
      s.streams.map (fun st => st.carried.length) = [2, 1] ∧
      (s.streams.filterMap Stream.job).Nodup ∧
        ∀ st ∈ s.streams, st.carried = handedOver (callJobs s.scheduler) st.job
          interleavedTokens := by
  have hrun : ((Machine.exec (ShellApp.step id {} fun _ => 0) (start {}) interleavedTokens).map
      fun s => s.streams.map fun st => st.carried.length) = some [2, 1] := by
    decide +kernel
  obtain ⟨s, hs, hlengths⟩ := Option.map_eq_some_iff.mp hrun
  exact ⟨s, hs, hlengths, responses_carry_own_tokens hs⟩

end Runs

end ServeInfer.ShellApp
