import ServeInfer.ApiServer.RunView
import ServeInfer.ApiServer.WorkerProcesses

/-!
# One frame per worker process

The pool keeps one request per worker, and a worker process serves one
connection at a time, but nothing tells a process that the pool is through with
a run. As long as no run ends before `handleClient` has returned for it, the
pool's books are the process's too.
-/

namespace ServeInfer.ApiServer

namespace Fleet

variable {o : Options} {s s' : Fleet} {a : FleetAction} {i r : ℕ} {w : ℤ} {run : Run} {p : Process}

/-- The run's frame has been written, and `handleClient` has not returned for it. -/
def pending (s : Fleet) (r : ℕ) : Bool := (s.pool.runs[r]?).any Run.written && s.held r

/-- The frame has been written to the process, which is alive, and has not been finished. -/
def Unfinished (s : Fleet) (i r : ℕ) : Prop :=
  ∃ p, s.processes[i]? = some p ∧ p.alive = true ∧ p.holds r = true ∧
    (s.pool.runs[r]?).any Run.written = true

/-- No process has two frames that are not finished. -/
def OneFrame (s : Fleet) : Prop := ∀ i r r', s.Unfinished i r → s.Unfinished i r' → r = r'

/-- Nothing ends a run whose frame is pending: no cancel, no socket error, no crash notice for its
worker and no bytes after which it is done. -/
def patient (o : Options) (s : Fleet) : FleetAction → Bool
  | .pool (.cancel r) => !s.pending r
  | .pool (.error r _) => !s.pending r
  | .pool (.supervisor _ (.workerCrashed w _)) =>
      (List.range s.pool.runs.length).all fun r =>
        !s.pending r || (s.pool.runs[r]?).all fun run => run.workerId ≠ w
  | .pool (.data r chunk) =>
      !s.pending r || (s.pool.runs[r]?).all fun run => !(run.onData o chunk).done
  | _ => true

/-- The pool's books and its runs, and whose the connections are. -/
structure Sound (s : Fleet) : Prop where
  booked : s.pool.Booked
  kept : s.pool.RunsKept
  used : ∀ {r : ℕ} {run}, s.pool.runs[r]? = some run → run.Used
  dialed : ∀ {r : ℕ} {run}, s.pool.runs[r]? = some run → run.written = true →
    (s.dialed.get? r).isSome = true
  home : ∀ {i r : ℕ} {p : Process}, s.processes[i]? = some p → p.holds r = true →
    s.dialed.get? r = some i ∧ ∃ run, s.pool.runs[r]? = some run ∧ run.workerId = p.worker
  waiting : ∀ {r : ℕ} {run}, s.pool.runs[r]? = some run → s.pending r = true → run.done = false

theorem held_iff : s.held r = true ↔
    ∃ (i : ℕ) (p : Process), s.processes[i]? = some p ∧ p.alive = true ∧ p.holds r = true := by
  simp only [held, List.any_eq_true, Bool.and_eq_true]
  constructor
  · rintro ⟨p, hp, halive, hholds⟩
    obtain ⟨i, hi⟩ := List.mem_iff_getElem?.mp hp
    exact ⟨i, p, hi, halive, hholds⟩
  · rintro ⟨i, p, hi, halive, hholds⟩
    exact ⟨p, List.mem_of_getElem? hi, halive, hholds⟩

theorem pending_of_unfinished (h : s.Unfinished i r) : s.pending r = true := by
  obtain ⟨p, hp, halive, hholds, hwritten⟩ := h
  rw [pending, hwritten, Bool.true_and, held_iff]
  exact ⟨i, p, hp, halive, hholds⟩

/-- Two runs of one worker that wait are one. -/
theorem Sound.unique (h : s.Sound) {r' : ℕ} {run' : Run} (hr : s.pool.runs[r]? = some run)
    (hr' : s.pool.runs[r']? = some run') (hw : run.workerId = run'.workerId)
    (hdone : run.done = false) (hdone' : run'.done = false) : r = r' := by
  obtain ⟨he, -⟩ := h.booked.filed (WorkerPool.core_of_run hr) hdone
  obtain ⟨he', -⟩ := h.booked.filed (WorkerPool.core_of_run hr') hdone'
  have hid := h.booked.unique he he' hw
  rw [hid, he'] at he
  exact (congrArg InFlight.run (Option.some.inj he)).symm

theorem Sound.oneFrame (h : s.Sound) : s.OneFrame := by
  intro i r r' hr hr'
  have hpending := pending_of_unfinished hr
  have hpending' := pending_of_unfinished hr'
  obtain ⟨p, hp, -, hholds, -⟩ := hr
  obtain ⟨p', hp', -, hholds', -⟩ := hr'
  obtain rfl := Option.some.inj (hp.symm.trans hp')
  obtain ⟨-, run, hrun, hw⟩ := h.home hp hholds
  obtain ⟨-, run', hrun', hw'⟩ := h.home hp hholds'
  exact h.unique hrun hrun' (hw.trans hw'.symm) (h.waiting hrun hpending) (h.waiting hrun' hpending')

theorem plain_of_offers {b : PoolAction} (hoffers : s.offers b = true) : b.plain := by
  cases b with
  | supervisor now msg =>
      cases msg with
      | workerCrashed w id => exact List.isEmpty_iff.mp hoffers
      | workerRestarted w => trivial
      | workerReady w => trivial
  | _ => trivial

section Pool

variable {b : PoolAction} {pool : WorkerPool} {run' : Run}

/-- A crash notice for another worker leaves a pending run alone. -/
theorem Sound.spared (h : s.Sound) {now : ℤ} {id : JsString}
    (hoffers : s.offers (.supervisor now (.workerCrashed w id)) = true)
    (hok : s.patient o (.pool (.supervisor now (.workerCrashed w id))) = true)
    (hstep : poolStep o s.pool (.supervisor now (.workerCrashed w id)) = some pool)
    (hr : s.pool.runs[r]? = some run) (hpending : s.pending r = true) :
    pool.runs[r]? = some run := by
  obtain rfl : id = [] := List.isEmpty_iff.mp hoffers
  have hpool : pool = s.pool.markWorkerCrashed o w [] := by
    unfold poolStep at hstep
    split at hstep
    · cases hstep
    · exact (Option.some.inj hstep).symm
  rw [hpool, WorkerPool.runs_markWorkerCrashed, hr]
  rintro id e he rfl rfl
  obtain ⟨⟨c, hc, hworker, -⟩, -⟩ := h.booked.entry he
  rw [WorkerPool.core_of_run hr] at hc
  obtain rfl := Option.some.inj hc
  have hall := List.all_eq_true.mp hok e.run
    (List.mem_range.mpr (List.getElem?_eq_some_iff.mp hr).1)
  simp only [hpending, hr, Bool.not_true, Bool.false_or, Option.all_some, decide_eq_true_eq] at hall
  exact hall hworker

/-- A pending run is not ended. -/
theorem Sound.done_of_step (h : s.Sound) (hoffers : s.offers b = true)
    (hok : s.patient o (.pool b) = true) (hstep : poolStep o s.pool b = some pool)
    (hr : s.pool.runs[r]? = some run) (hpending : s.pending r = true)
    (hr' : pool.runs[r]? = some run') : run'.done = false := by
  have hdone := h.waiting hr hpending
  obtain ⟨run'', hr'', htouched⟩ := WorkerPool.touched_of_step hstep r hr
  obtain rfl := Option.some.inj (hr''.symm.trans hr')
  obtain rfl | hhappens | ⟨now, w, id, rfl, -⟩ := htouched
  · exact hdone
  · cases hhappens with
    | connect => exact hdone
    | data => simpa [patient, hpending, hr] using hok
    | error => simp [patient, hpending] at hok
    | close hcan =>
        have hheld : s.held r = true := by
          rw [pending, Bool.and_eq_true] at hpending
          exact hpending.2
        have hdestroyed : run.destroyed = true := by simpa [offers, hr, hheld] using hoffers
        have herror := ((h.kept r run hr).socket hdone).2 hdestroyed
        rw [Run.canClose, Bool.and_eq_true] at hcan
        rw [Option.isNone_iff_eq_none.mp hcan.2] at herror
        cases herror
    | connectTimeout => exact (Run.done_destroy _ _).trans hdone
    | cancel => simp [patient, hpending] at hok
    | crash =>
        rw [h.spared hoffers hok hstep hr hpending] at hr'
        rw [← Option.some.inj hr', hdone]
  · rw [h.spared hoffers hok hstep hr hpending] at hr'
    rw [← Option.some.inj hr', hdone]

theorem Sound.pooled (h : s.Sound) (hoffers : s.offers b = true)
    (hok : s.patient o (.pool b) = true) (hstep : poolStep o s.pool b = some pool) :
    Sound { s with pool := pool, outbox := s.taken b } where
  booked := h.booked.step (plain_of_offers hoffers) hstep
  kept := h.kept.step hstep
  used := fun {r run'} hr' => by
    obtain ⟨run, hr, hchain⟩ | ⟨-, -, -, -, -, rfl⟩ := WorkerPool.run_of_step hstep hr'
    · exact (h.used hr).happens_all hchain
    · intro hdone
      cases hdone
  dialed := fun {r run'} hr' hwritten => by
    obtain ⟨run, hr, -⟩ | ⟨_, _, _, -, -, hnew⟩ := WorkerPool.run_of_step hstep hr'
    · obtain ⟨run'', hr'', hlater | ⟨rfl, -, -⟩⟩ := WorkerPool.later_of_step hstep hr
      · obtain rfl := Option.some.inj (hr''.symm.trans hr')
        exact h.dialed hr (hlater.written.symm.trans hwritten)
      · exact hoffers
    · rw [hnew] at hwritten
      cases hwritten
  home := fun {i r p} hp hholds => by
    obtain ⟨hdialed, run, hr, hw⟩ := h.home hp hholds
    obtain ⟨run', hr', hlater | ⟨-, -, rfl⟩⟩ := WorkerPool.later_of_step hstep hr
    · exact ⟨hdialed, run', hr', hlater.workerId.trans hw⟩
    · exact ⟨hdialed, run.connect, hr', hw⟩
  waiting := fun {r run'} hr' hpending' => by
    have hheld : s.held r = true ∧ run'.written = true := by
      have hboth := Bool.and_eq_true_iff.mp hpending'
      refine ⟨hboth.2, ?_⟩
      have hwritten := hboth.1
      dsimp only at hwritten
      rwa [hr'] at hwritten
    obtain ⟨run, hr, -⟩ | ⟨_, _, _, -, -, hnew⟩ := WorkerPool.run_of_step hstep hr'
    · obtain ⟨run'', hr'', hlater | ⟨-, hcan, rfl⟩⟩ := WorkerPool.later_of_step hstep hr
      · obtain rfl := Option.some.inj (hr''.symm.trans hr')
        have hpending : s.pending r = true := by
          rw [pending, hr, hheld.1, Option.any_some, ← hlater.written, hheld.2]
          rfl
        exact h.done_of_step hoffers hok hstep hr hpending hr'
      · obtain rfl := Option.some.inj (hr''.symm.trans hr')
        -- A socket that can connect is that of a run which nothing has ended.
        rw [Run.canConnect, Bool.and_eq_true, Bool.not_eq_true', Bool.not_eq_true'] at hcan
        by_contra hdone
        obtain hused | hused := h.used hr (Bool.eq_true_of_not_eq_false hdone)
        · rw [hcan.1] at hused
          cases hused
        · rw [hcan.2] at hused
          cases hused
    · rw [hnew]

end Pool

/-- The processes move, and none holds a connection that it did not hold. -/
theorem Sound.processes (h : s.Sound) (hpool : s'.pool = s.pool) (hdialed : s'.dialed = s.dialed)
    (hold : ∀ (i r : ℕ) (p' : Process), s'.processes[i]? = some p' → p'.holds r = true →
      ∃ p, s.processes[i]? = some p ∧ p.worker = p'.worker ∧ p.holds r = true ∧
        (p'.alive = true → p.alive = true)) : s'.Sound where
  booked := hpool ▸ h.booked
  kept := hpool ▸ h.kept
  used := fun hr => h.used (hpool ▸ hr)
  dialed := fun hr hwritten => hdialed ▸ h.dialed (hpool ▸ hr) hwritten
  home := fun hp hholds => by
    obtain ⟨p, hp, hworker, hholds, -⟩ := hold _ _ _ hp hholds
    rw [hdialed, hpool, ← hworker]
    exact h.home hp hholds
  waiting := fun {r run} hr hpending => by
    rw [hpool] at hr
    refine h.waiting hr ?_
    rw [pending, Bool.and_eq_true, held_iff] at hpending ⊢
    obtain ⟨hwritten, i, p', hp', halive, hholds⟩ := hpending
    obtain ⟨p, hp, -, hholds, halive'⟩ := hold _ _ _ hp' hholds
    exact ⟨hpool ▸ hwritten, i, p, hp, halive' halive, hholds⟩

theorem holds_modify {f : Process → Process} (hworker : ∀ p, (f p).worker = p.worker)
    (hholds : ∀ p, s.processes[i]? = some p → (f p).holds r = true → p.holds r = true)
    (halive : ∀ p, (f p).alive = true → p.alive = true) {k : ℕ} {p' : Process}
    (hp' : (s.processes.modify i f)[k]? = some p') (hr : p'.holds r = true) :
    ∃ p, s.processes[k]? = some p ∧ p.worker = p'.worker ∧ p.holds r = true ∧
      (p'.alive = true → p.alive = true) := by
  rw [List.getElem?_modify] at hp'
  obtain ⟨p, hp, rfl⟩ := Option.map_eq_some_iff.mp hp'
  split at hr
  · rename_i hik
    subst hik
    refine ⟨p, hp, ?_, hholds p hp hr, ?_⟩
    · rw [if_pos rfl]
      exact (hworker p).symm
    · rw [if_pos rfl]
      exact halive p
  · rename_i hik
    rw [if_neg hik]
    exact ⟨p, hp, rfl, hr, id⟩

theorem Sound.listen (h : s.Sound) (w : ℤ) :
    Sound { s with processes := s.processes ++ [{ worker := w }] } := by
  refine h.processes rfl rfl fun i r p' hp' hr => ?_
  rw [List.getElem?_append] at hp'
  split at hp'
  · exact ⟨p', hp', rfl, hr, id⟩
  · rw [List.getElem?_singleton] at hp'
    split at hp'
    · obtain rfl := Option.some.inj hp'
      cases hr
    · cases hp'

theorem Sound.accept (h : s.Sound) (hs : s.accept i = some s') : s'.Sound := by
  unfold Fleet.accept at hs
  split at hs
  · rename_i w r rest hp
    obtain rfl := Option.some.inj hs
    refine h.processes rfl rfl fun k r' p' hp' hr => ?_
    refine holds_modify ?_ ?_ ?_ hp' hr
    · exact fun _ => rfl
    · intro p hp₀ hholds
      obtain rfl := Option.some.inj (hp₀.symm.trans hp)
      simp only [Process.holds, Bool.or_eq_true, List.contains_eq_mem, decide_eq_true_eq,
        List.mem_cons, Option.some.injEq] at hholds ⊢
      obtain hmem | rfl := hholds
      · exact .inl (.inr hmem)
      · exact .inl (.inl rfl)
    · exact fun _ halive => halive
  · cases hs

theorem Sound.send (h : s.Sound) {bytes : List UInt8} (hs : s.send i bytes = some s') :
    s'.Sound := by
  unfold Fleet.send at hs
  split at hs
  · obtain ⟨-, hs⟩ := Option.ite_none_right_eq_some.mp hs
    obtain rfl := Option.some.inj hs
    exact h.processes rfl rfl fun _ _ p hp hr => ⟨p, hp, rfl, hr, id⟩
  · cases hs

theorem Sound.reply (h : s.Sound) {bytes : List UInt8} (hs : s.reply i bytes = some s') :
    s'.Sound := by
  unfold Fleet.reply at hs
  split at hs
  · obtain ⟨-, hs⟩ := Option.ite_none_right_eq_some.mp hs
    obtain rfl := Option.some.inj hs
    refine h.processes rfl rfl fun k r' p' hp' hr => ?_
    refine holds_modify ?_ ?_ ?_ hp' hr
    · exact fun _ => rfl
    · intro p hp hholds
      simp only [Process.holds, Bool.or_eq_true] at hholds ⊢
      exact hholds.imp_right fun hfalse => by simp at hfalse
    · exact fun _ halive => halive
  · cases hs

theorem listener_eq_some (h : s.listener w = some i) :
    ∃ p, s.processes[i]? = some p ∧ p.worker = w := by
  obtain ⟨e, he, rfl⟩ := Option.map_eq_some_iff.mp h
  have hmem := List.mem_reverse.mp (List.mem_of_find?_eq_some he)
  exact ⟨e.1, List.mem_zipIdx_iff_getElem?.mp hmem, by simpa using List.find?_some he⟩

/-- A connection that is made has no frame yet. -/
theorem Sound.dial (h : s.Sound) (hs : s.dial r = some s') : s'.Sound := by
  unfold Fleet.dial at hs
  split at hs
  · rename_i run hr hfresh
    obtain ⟨i, hlistener, hs⟩ := Option.bind_eq_some_iff.mp hs
    obtain ⟨hcan, hs⟩ := Option.ite_none_right_eq_some.mp hs
    obtain rfl := Option.some.inj hs
    obtain ⟨q, hq, hworker⟩ := listener_eq_some hlistener
    have hunwritten : run.written = false := by
      simp only [Run.canConnect, Bool.and_eq_true, Bool.not_eq_true'] at hcan
      exact hcan.1.1
    -- What a process holds now it held before, or it is the new connection.
    have hold : ∀ {k r' : ℕ} {p' : Process},
        (s.processes.modify i fun p => { p with backlog := p.backlog ++ [r] })[k]? = some p' →
        p'.holds r' = true → r' = r ∧ k = i ∧ p'.worker = run.workerId ∨
          r' ≠ r ∧ ∃ p, s.processes[k]? = some p ∧ p.worker = p'.worker ∧ p.holds r' = true ∧
            (p'.alive = true → p.alive = true) := by
      intro k r' p' hp' hholds
      have hne : ∀ {p : Process}, s.processes[k]? = some p → p.holds r' = true → r' ≠ r := by
        rintro p hp hpr rfl
        rw [(h.home hp hpr).1] at hfresh
        cases hfresh
      rw [List.getElem?_modify] at hp'
      obtain ⟨p, hp, rfl⟩ := Option.map_eq_some_iff.mp hp'
      by_cases hik : i = k
      · subst hik
        obtain rfl := Option.some.inj (hp.symm.trans hq)
        rw [if_pos rfl] at hholds ⊢
        simp only [Process.holds, Bool.or_eq_true, List.contains_eq_mem, List.mem_append,
          List.mem_singleton, decide_eq_true_eq] at hholds
        obtain (hmem | rfl) | hserving := hholds
        · have hpr : p.holds r' = true := by simp [Process.holds, hmem]
          exact .inr ⟨hne hp hpr, p, hp, rfl, hpr, id⟩
        · exact .inl ⟨rfl, rfl, hworker⟩
        · have hpr : p.holds r' = true := by simp [Process.holds, hserving]
          exact .inr ⟨hne hp hpr, p, hp, rfl, hpr, id⟩
      · rw [if_neg hik] at hholds ⊢
        exact .inr ⟨hne hp hholds, p, hp, rfl, hholds, id⟩
    constructor
    · exact h.booked
    · exact h.kept
    · exact h.used
    · intro k run' hk hwritten
      simp only [OrderedMap.get?_set]
      split
      · rfl
      · exact h.dialed hk hwritten
    · intro k r' p' hp' hholds
      simp only [OrderedMap.get?_set]
      obtain ⟨rfl, rfl, hw⟩ | ⟨hne, p, hp, hw, hholds, -⟩ := hold hp' hholds
      · exact ⟨if_pos rfl, run, hr, hw.symm⟩
      · obtain ⟨hdialed, run', hr', hw'⟩ := h.home hp hholds
        exact ⟨by rw [if_neg (Ne.symm hne), hdialed], run', hr', hw'.trans hw⟩
    · intro k run' hk hpending
      refine h.waiting hk ?_
      rw [pending, Bool.and_eq_true, held_iff] at hpending ⊢
      obtain ⟨hwritten, j, p', hp', halive, hholds⟩ := hpending
      obtain ⟨rfl, -⟩ | ⟨-, p, hp, -, hholds, halive'⟩ := hold hp' hholds
      · rw [hr, Option.any_some, hunwritten] at hwritten
        cases hwritten
      · exact ⟨hwritten, j, p, hp, halive' halive, hholds⟩
  · cases hs

theorem sound_init (o : Options) (now : ℤ) : (init o now).Sound where
  booked := WorkerPool.booked_new o now
  kept := fun r run hr => by simp [init, WorkerPool.new] at hr
  used := fun hr => by simp [init, WorkerPool.new] at hr
  dialed := fun hr => by simp [init, WorkerPool.new] at hr
  home := fun hp => by simp [init] at hp
  waiting := fun hr => by simp [init, WorkerPool.new] at hr

theorem Sound.step (h : s.Sound) (hok : s.patient o a = true) (hs : fleetStep o s a = some s') :
    s'.Sound := by
  cases a with
  | listen w =>
      obtain rfl := Option.some.inj hs
      exact h.listen w
  | die i =>
      obtain ⟨-, hs⟩ := Option.ite_none_right_eq_some.mp hs
      obtain rfl := Option.some.inj hs
      refine h.processes rfl rfl fun k r p' hp' hr => ?_
      refine holds_modify ?_ ?_ ?_ hp' hr
      · exact fun _ => rfl
      · exact fun _ _ hholds => hholds
      · exact fun _ hfalse => by cases hfalse
  | dial r => exact h.dial hs
  | accept i => exact h.accept hs
  | send i bytes => exact h.send hs
  | reply i bytes => exact h.reply hs
  | pool b =>
      obtain ⟨hoffers, hs⟩ := Option.ite_none_right_eq_some.mp hs
      obtain ⟨pool, hstep, rfl⟩ := Option.map_eq_some_iff.mp hs
      exact h.pooled hoffers hok hstep

/-- A step opens a run on the worker. -/
def Dispatches (s s' : Fleet) (w : ℤ) : Prop :=
  ∃ run, s'.pool.runs = s.pool.runs ++ [run] ∧ run.workerId = w

theorem Sound.not_waiting_of_infer (h : s.Sound) {reading : Reading} {request : InferRequest}
    {pool : WorkerPool} (hstep : poolStep o s.pool (.infer reading request) = some pool)
    (hruns : ∃ run, pool.runs = s.pool.runs ++ [run] ∧ run.workerId = w)
    (hr : s.pool.runs[r]? = some run) (hdone : run.done = false) : run.workerId ≠ w := by
  rintro rfl
  unfold poolStep at hstep
  split at hstep
  · cases hstep
  · dsimp only at hstep
    split at hstep
    · cases hstep
    · obtain rfl := Option.some.inj hstep
      have hrefresh := h.booked.moves
        (WorkerPool.moves_refreshWorkerReadiness (o := o) s.pool reading)
      have hsame := WorkerPool.runs_refreshWorkerReadiness (o := o) s.pool reading
      obtain ⟨opened, hopened, hworker⟩ := hruns
      obtain heq | ⟨v, hready, heq⟩ := WorkerPool.infer_cases (o := o) s.pool reading request
      · rw [heq] at hopened
        have hlength := congrArg List.length (hsame.symm.trans hopened)
        simp at hlength
      · rw [heq, WorkerPool.openRun, WorkerPool.runs_setWorker, hsame] at hopened
        obtain rfl := (List.append_inj' hopened rfl).2 |> List.singleton_inj.mp
        obtain ⟨he, -⟩ := hrefresh.filed (WorkerPool.core_of_run (hsame.symm ▸ hr)) hdone
        have hbusy := (hrefresh.entry he).2
        rw [show run.core.workerId = v from hworker.symm, hready] at hbusy
        cases hbusy

/-- A step of a process leaves the pool alone. -/
theorem pool_of_step (hs : fleetStep o s a = some s') (ha : ∀ b, a ≠ .pool b) :
    s'.pool = s.pool := by
  cases a with
  | listen w =>
      obtain rfl := Option.some.inj hs
      rfl
  | die i =>
      obtain ⟨-, hs⟩ := Option.ite_none_right_eq_some.mp hs
      obtain rfl := Option.some.inj hs
      rfl
  | dial r =>
      dsimp only [fleetStep, Fleet.dial] at hs
      split at hs
      · obtain ⟨i, -, hs⟩ := Option.bind_eq_some_iff.mp hs
        obtain ⟨-, hs⟩ := Option.ite_none_right_eq_some.mp hs
        obtain rfl := Option.some.inj hs
        rfl
      · cases hs
  | accept i =>
      dsimp only [fleetStep, Fleet.accept] at hs
      split at hs
      · obtain rfl := Option.some.inj hs
        rfl
      · cases hs
  | send i bytes =>
      dsimp only [fleetStep, Fleet.send] at hs
      split at hs
      · obtain ⟨-, hs⟩ := Option.ite_none_right_eq_some.mp hs
        obtain rfl := Option.some.inj hs
        rfl
      · cases hs
  | reply i bytes =>
      dsimp only [fleetStep, Fleet.reply] at hs
      split at hs
      · obtain ⟨-, hs⟩ := Option.ite_none_right_eq_some.mp hs
        obtain rfl := Option.some.inj hs
        rfl
      · cases hs
  | pool b => exact absurd rfl (ha b)

/-- A worker that a run is opened on has no frame pending. -/
theorem Sound.free_of_dispatch (h : s.Sound) (hs : fleetStep o s a = some s')
    (hw : Dispatches s s' w) (hr : s.pool.runs[r]? = some run) (hpending : s.pending r = true) :
    run.workerId ≠ w := by
  obtain ⟨opened, hopened, hworker⟩ := hw
  by_cases ha : ∀ b, a ≠ .pool b
  · have hlength := congrArg List.length hopened
    rw [pool_of_step hs ha] at hlength
    simp at hlength
  · obtain ⟨b, rfl⟩ : ∃ b, a = .pool b := by simpa using ha
    obtain ⟨-, hs⟩ := Option.ite_none_right_eq_some.mp hs
    obtain ⟨pool, hstep, rfl⟩ := Option.map_eq_some_iff.mp hs
    obtain hsame | ⟨reading, request, v, rfl, -⟩ := WorkerPool.runs_of_step hstep
    · have hlength := congrArg List.length hopened
      rw [hsame] at hlength
      simp at hlength
    · exact h.not_waiting_of_infer hstep ⟨opened, hopened, hworker⟩ hr (h.waiting hr hpending)

/-- In a run in which nothing ends a run before `handleClient` has returned for its frame, no worker
process ever has two frames that are not finished, and no request is dispatched to a worker while
`handleClient` has not returned for an earlier one. -/
theorem one_frame_per_process {now : ℤ} {as : List FleetAction}
    (hok : Machine.Guarded (fleetStep o) (fun s a => s.patient o a) (init o now) as) :
    Machine.Always (fleetStep o) OneFrame (init o now) as ∧
      ∀ pre a, pre ++ [a] <+: as → ∀ s s', Machine.exec (fleetStep o) (init o now) pre = some s →
        fleetStep o s a = some s' → ∀ w, Dispatches s s' w →
        ∀ (r : ℕ) run, s.pool.runs[r]? = some run → s.pending r = true → run.workerId ≠ w := by
  have hsound : Machine.Always (fleetStep o) Sound (init o now) as :=
    hok.always (sound_init o now) fun _ _ _ h hpatient hs => h.step hpatient hs
  refine ⟨fun pre hpre s hs => (hsound pre hpre s hs).oneFrame, ?_⟩
  intro pre a hpre s s' hs hstep w hw r run hr hpending
  have h := hsound pre ((List.prefix_append pre _).trans hpre) s hs
  exact h.free_of_dispatch hstep hw hr hpending

/-- A stream on worker 0 whose process has accepted its connection and read its frame. -/
def streamServed : List FleetAction :=
  [.listen 0, .pool (.infer ⟨100, fun _ => true⟩ ⟨Json.units "a", Json.units "hi", [], true⟩),
    .dial 0, .pool (.connect 0), .accept 0]

/-- A result frame, as the process sends it. -/
def resultFrame : List UInt8 :=
  "\x7b\"type\":\"result\",\"requestId\":\"a\",\"text\":\"yo\"\x7d\n".toList.map fun c =>
    c.toNat.toUInt8

/-- The stream is answered, and the next request goes to the same process. -/
def answeredThenNext : List FleetAction :=
  streamServed ++ [.reply 0 resultFrame, .pool (.data 0 resultFrame),
    .pool (.infer ⟨200, fun _ => true⟩ ⟨Json.units "b", Json.units "hi", [], false⟩), .dial 1,
    .pool (.connect 1)]

theorem one_frame_per_process_answeredThenNext :
    ∃ s, Machine.exec (fleetStep WorkerPool.twoWorkers) (init WorkerPool.twoWorkers 0)
        answeredThenNext = some s ∧ s.OneFrame := by
  have hok : Machine.Guarded (fleetStep WorkerPool.twoWorkers)
      (fun s a => s.patient WorkerPool.twoWorkers a) (init WorkerPool.twoWorkers 0)
      answeredThenNext := by decide +kernel
  have hrun : (Machine.exec (fleetStep WorkerPool.twoWorkers) (init WorkerPool.twoWorkers 0)
      answeredThenNext).isSome = true := by decide +kernel
  obtain ⟨s, hs⟩ := Option.isSome_iff_exists.mp hrun
  exact ⟨s, hs, (one_frame_per_process hok).1 _ (List.prefix_refl _) s hs⟩

/-- The stream's caller goes away, and the next request is sent to the process that decodes for the
first one still. -/
def cancelledThenNext : List FleetAction :=
  streamServed ++ [.pool (.cancel 0),
    .pool (.infer ⟨200, fun _ => true⟩ ⟨Json.units "b", Json.units "hi", [], false⟩), .dial 1,
    .pool (.connect 1)]

theorem two_frames_after_cancel :
    ¬ ∀ (o : Options) (now : ℤ) (as : List FleetAction),
      Machine.Always (fleetStep o) OneFrame (init o now) as := by
  intro hall
  have hrun : (Machine.exec (fleetStep WorkerPool.twoWorkers) (init WorkerPool.twoWorkers 0)
      cancelledThenNext).any (fun s => s.processes = [⟨0, true, [1], some 0⟩] ∧
        s.pool.runs.map Run.written = [true, true]) = true := by
    decide +kernel
  obtain ⟨s, hs, hstate⟩ := (Option.any_eq_true _ _).mp hrun
  obtain ⟨hprocesses, hwritten⟩ := of_decide_eq_true hstate
  have hunfinished : ∀ r < 2, s.Unfinished 0 r := by
    intro r hr
    refine ⟨⟨0, true, [1], some 0⟩, by rw [hprocesses]; rfl, rfl, ?_, ?_⟩
    · obtain rfl | rfl : r = 0 ∨ r = 1 := by omega
      all_goals rfl
    · have hmap : (s.pool.runs.map Run.written)[r]? = some true := by
        rw [hwritten]
        obtain rfl | rfl : r = 0 ∨ r = 1 := by omega
        all_goals rfl
      rw [List.getElem?_map] at hmap
      obtain ⟨run, hrun, hout⟩ := Option.map_eq_some_iff.mp hmap
      rw [hrun, Option.any_some, hout]
  have hone := hall _ 0 cancelledThenNext _ (List.prefix_refl _) s hs 0 0 1
    (hunfinished 0 (by omega)) (hunfinished 1 (by omega))
  cases hone

end Fleet

end ServeInfer.ApiServer
