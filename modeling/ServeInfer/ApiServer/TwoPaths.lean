import ServeInfer.ApiServer.LineReading

/-!
# The buffered and the streaming path

A request's run without the runs: what its end does to the pool's books depends on the
run's worker, its id and whether it is done. So two runs that agree in these and in
their outcomes go on alike over the same lines, whichever path each is on and whatever
tokens stand between the lines.
-/

namespace ServeInfer.ApiServer

open Lines

/-- A token whose text `String` cannot make makes the streaming path throw. -/
def TokenHasText (line : JsString) : Prop :=
  ∀ msg ∈ Json.parse line, WorkerPool.isType msg "token" = true →
    ((msg.get? "token").any fun v => !v.hasText) = false

instance decidableTokenHasText (line : JsString) : Decidable (TokenHasText line) :=
  inferInstanceAs (Decidable (∀ msg ∈ Json.parse line, WorkerPool.isType msg "token" = true →
    ((msg.get? "token").any fun v => !v.hasText) = false))

/-- A line with a token that has a text. -/
def IsToken (line : JsString) : Prop :=
  TokenHasText line ∧ ∃ msg, Json.parse line = some msg ∧ WorkerPool.isType msg "token" = true

instance decidableIsToken (line : JsString) : Decidable (IsToken line) :=
  decidable_of_iff (TokenHasText line ∧
      (Json.parse line).any (WorkerPool.isType · "token") = true) <| by
    simp only [IsToken, Option.any_eq_true]

/-- The lines that are none of a token. -/
def others (ls : List JsString) : List JsString := ls.filter fun l => ¬ IsToken (Json.trim l)

/-- Whatever the two runs are, they go on alike: neither has been cleaned up before it is done. -/
structure Run.Twins (run run' : Run) : Prop where
  workerId : run'.workerId = run.workerId
  requestId : run'.requestId = run.requestId
  done : run'.done = run.done
  outcome : run'.outcome = run.outcome
  clean : run.cleanupDone = true → run.done = true
  clean' : run'.cleanupDone = true → run'.done = true

namespace WorkerPool

variable {o : Options} {s t : WorkerPool} {r : ℕ} {w : ℤ} {run run' : Run} {msg : Json}
  {line tail rest : JsString} {ls : List JsString}

/-- The pool without its runs. -/
def books (s : WorkerPool) : WorkerPool := { s with runs := [] }

/-- What `cleanup` does for a request that is in flight on the worker. -/
def giveBack (s : WorkerPool) (w : ℤ) (requestId : JsString) : WorkerPool :=
  (s.deleteInFlight requestId).setWorker w fun e =>
    if e.status = .crashed then e else { e with status := .ready }

/-- What a failure does for a request that is in flight on the worker. -/
def giveUp (o : Options) (s : WorkerPool) (w : ℤ) (requestId : JsString) (code : ErrorCode) :
    WorkerPool :=
  if isTransportFailure code then (s.giveBack w requestId).quarantineAfterTransportFailure o w
  else s.giveBack w requestId

section Books

@[simp] theorem books_setRun (s : WorkerPool) (r : ℕ) (f : Run → Run) :
    (s.setRun r f).books = s.books := rfl

@[simp] theorem books_settle (s : WorkerPool) (r : ℕ) (outcome : Outcome) :
    (s.settle r outcome).books = s.books := rfl

@[simp] theorem books_destroy (s : WorkerPool) (r : ℕ) (err : Option WorkerPoolError) :
    (s.destroy r err).books = s.books := rfl

@[simp] theorem books_setWorker (s : WorkerPool) (w : ℤ) (f : WorkerEntry → WorkerEntry) :
    (s.setWorker w f).books = s.books.setWorker w f := by
  have hget : s.books.workers.get? w = s.workers.get? w := rfl
  unfold setWorker
  rw [hget]
  cases s.workers.get? w <;> rfl

@[simp] theorem books_scheduleRecoveryProbe (s : WorkerPool) (w : ℤ) :
    (s.scheduleRecoveryProbe o w).books = s.books.scheduleRecoveryProbe o w := by
  have hget : s.books.workers.get? w = s.workers.get? w := rfl
  unfold scheduleRecoveryProbe
  rw [hget]
  cases s.workers.get? w with
  | none => rfl
  | some e =>
      dsimp only
      split_ifs
      · rfl
      · rfl
      · show ((s.setWorker w _).books.setTimeout w _) = _
        rw [books_setWorker]
        rfl

@[simp] theorem books_quarantine (s : WorkerPool) (w : ℤ) :
    (s.quarantineAfterTransportFailure o w).books = s.books.quarantineAfterTransportFailure o w := by
  have hget : s.books.workers.get? w = s.workers.get? w := rfl
  unfold quarantineAfterTransportFailure
  rw [hget]
  cases s.workers.get? w with
  | none => rfl
  | some e =>
      dsimp only
      split_ifs
      · rfl
      · rw [books_scheduleRecoveryProbe, books_setWorker]
        show (((s.setWorker w _).books.clearTimeout e.recoveryTimer).setWorker w _
          |>.scheduleRecoveryProbe o w) = _
        rw [books_setWorker]

theorem books_finish (hr : s.runs[r]? = some run) (hclean : run.cleanupDone = false) :
    ((s.markDone r).cleanup r).books = s.books.giveBack run.workerId run.requestId := by
  have hr' : (s.markDone r).runs[r]? = some { run with done := true } := by
    rw [markDone, getElem?_setRun, if_pos rfl, hr, Option.map_some]
  simp only [cleanup, hr', hclean, Bool.and_false, Bool.false_eq_true, if_false]
  rw [books_setWorker]
  rfl

theorem books_abandon (hr : s.runs[r]? = some run) (hclean : run.cleanupDone = false)
    (err : WorkerPoolError) :
    (s.abandon o r run.workerId err).books =
      s.books.giveUp o run.workerId run.requestId err.code := by
  have hfinish := books_finish hr hclean
  unfold abandon giveUp
  dsimp only
  split
  · rw [books_quarantine, hfinish]
  · exact hfinish

/-- A failure gives up on a run that is not done, and does nothing for one that is. -/
theorem books_failRun (hr : s.runs[r]? = some run)
    (hclean : run.cleanupDone = true → run.done = true) (err : WorkerPoolError) :
    (s.failRun o r err).books =
      if run.done then s.books else s.books.giveUp o run.workerId run.requestId err.code := by
  cases hdone : run.done with
  | true =>
      unfold failRun
      simp only [hr, if_true]
      split
      · rename_i hstream
        unfold failInFlight
        simp only [hr, hstream, hdone, if_true]
      · unfold finalizeError
        simp only [hr, hdone, if_true]
  | false =>
      have hdirty : run.cleanupDone = false := by
        by_contra hcleaned
        rw [hclean (eq_true_of_ne_false hcleaned)] at hdone
        cases hdone
      have hbooks := books_abandon (o := o) hr hdirty err
      unfold failRun failInFlight finalizeError
      simp only [hr, hdone, Bool.false_eq_true, if_false]
      split
      · rw [books_settle, books_destroy, hbooks]
      · rw [books_settle, hbooks]

theorem books_onResult (hr : s.runs[r]? = some run)
    (hclean : run.cleanupDone = true → run.done = true) (msg : Json) :
    (s.onResult o r msg).books =
      if run.done then s.books
      else (s.books.giveBack run.workerId run.requestId).recordDevice o run.workerId msg := by
  cases hdone : run.done with
  | true =>
      unfold onResult
      simp only [hr, hdone, if_true]
  | false =>
      have hdirty : run.cleanupDone = false := by
        by_contra hcleaned
        rw [hclean (eq_true_of_ne_false hcleaned)] at hdone
        cases hdone
      have hbooks := books_finish hr hdirty
      unfold onResult recordDevice
      simp only [hr, hdone, Bool.false_eq_true, if_false]
      rw [books_settle, books_setWorker, books_setRun, hbooks]

end Books

/-- A frame has one type. -/
theorem isType_of_ne {type other : String} (h : isType msg type = true)
    (hne : Json.units type ≠ Json.units other) : isType msg other = false := by
  unfold isType at h ⊢
  split at h
  · exact decide_eq_false fun heq => hne ((of_decide_eq_true h).symm.trans heq)
  · cases h

theorem not_error_of_token (h : isType msg "token" = true) : isType msg "error" = false :=
  isType_of_ne h (by decide)

theorem not_result_of_token (h : isType msg "token" = true) : isType msg "result" = false :=
  isType_of_ne h (by decide)

end WorkerPool

namespace Run.Twins

variable {o : Options} {run run' : Run} {msg : Json} {line : JsString}

/-- The run is settled, and cleaned up no later than it is done. -/
theorem finish (h : run.Twins run') : run.finish.Twins run'.finish where
  workerId := h.workerId
  requestId := h.requestId
  done := rfl
  outcome := h.outcome
  clean _ := rfl
  clean' _ := rfl

theorem settle (h : run.Twins run') (x : Outcome) : (run.settle x).Twins (run'.settle x) :=
  { h with
    outcome := by
      show (run'.outcome <|> some x) = (run.outcome <|> some x)
      rw [h.outcome] }

/-- A socket may be destroyed on either side. -/
theorem destroy_right (h : run.Twins run') (err : Option WorkerPoolError) :
    run.Twins (run'.destroy err) := by
  unfold Run.destroy
  split
  · exact h
  · exact { h with }

theorem symm (h : run.Twins run') : run'.Twins run where
  workerId := h.workerId.symm
  requestId := h.requestId.symm
  done := h.done.symm
  outcome := h.outcome.symm
  clean := h.clean'
  clean' := h.clean

theorem trans {run'' : Run} (h : run.Twins run') (h' : run'.Twins run'') : run.Twins run'' where
  workerId := h'.workerId.trans h.workerId
  requestId := h'.requestId.trans h.requestId
  done := h'.done.trans h.done
  outcome := h'.outcome.trans h.outcome
  clean := h.clean
  clean' := h'.clean'

theorem destroy_left (h : run.Twins run') (err : Option WorkerPoolError) :
    (run.destroy err).Twins run' :=
  (h.symm.destroy_right err).symm

/-- A failure settles a run that is not done; which of the two also destroys the socket does not
matter. -/
theorem failRun (h : run.Twins run') (err : WorkerPoolError) :
    (run.failRun err).Twins (run'.failRun err) := by
  have hdone := h.done
  cases hd : run.done with
  | true =>
      have hsame : ∀ run : Run, run.done = true → run.failRun err = run := by
        intro run hd
        cases hstream : run.stream <;> simp [Run.failRun, failInFlight, finalizeError, hstream, hd]
      rw [hsame run hd, hsame run' (hdone.trans hd)]
      exact h
  | false =>
      rw [failRun_of_open hd, failRun_of_open (hdone.trans hd)]
      apply settle
      split
      · split
        · exact (h.finish.destroy_left none).destroy_right none
        · exact h.finish.destroy_left none
      · split
        · exact h.finish.destroy_right none
        · exact h.finish

theorem onResult (h : run.Twins run') (msg : Json) :
    (run.onResult o msg).Twins (run'.onResult o msg) := by
  have hdone := h.done
  cases hd : run.done with
  | true =>
      rw [Run.onResult, Run.onResult, if_pos hd, if_pos (hdone.trans hd)]
      exact h
  | false =>
      rw [onResult_of_open hd, onResult_of_open (hdone.trans hd)]
      apply settle
      exact { h.finish with }

theorem onToken_right (h : run.Twins run') (token : JsString) : run.Twins (run'.onToken token) :=
  { h with }

theorem textless_eq (h : run.Twins run')
    (htoken : WorkerPool.isType msg "token" = true →
      ((msg.get? "token").any fun v => !v.hasText) = false) :
    WorkerPool.textless o run' msg = WorkerPool.textless o run msg := by
  unfold WorkerPool.textless
  rw [h.done]
  cases htype : WorkerPool.isType msg "token" with
  | true =>
      simp only [htoken htype, WorkerPool.not_error_of_token htype,
        WorkerPool.not_result_of_token htype, Bool.and_true, Bool.false_and, Bool.false_eq_true,
        if_false, ite_self]
  | false => simp only [Bool.and_false]

end Run.Twins

namespace WorkerPool

variable {o : Options} {s t : WorkerPool} {r : ℕ} {run run' : Run} {msg : Json}
  {line tail : JsString} {ls : List JsString}

/-- The two pools have the same books, and the requests are twins. -/
structure Twins (r : ℕ) (s t : WorkerPool) : Prop where
  books : t.books = s.books
  runs : ∃ run run', s.runs[r]? = some run ∧ t.runs[r]? = some run' ∧ run.Twins run'

namespace Twins

/-- The books stay the same, and the requests twins. -/
theorem of_modify {s' t' : WorkerPool} {f g : Run → Run} (h : Twins r s t)
    (hbooks : t'.books = s'.books) (hf : s'.runs = s.runs.modify r f)
    (hg : t'.runs = t.runs.modify r g)
    (hfg : ∀ run run' : Run, run.Twins run' → (f run).Twins (g run')) : Twins r s' t' := by
  obtain ⟨run, run', hr, hr', htwins⟩ := h.runs
  refine ⟨hbooks, f run, g run', ?_, ?_, hfg run run' htwins⟩
  · rw [hf, List.getElem?_modify_eq, hr]
    rfl
  · rw [hg, List.getElem?_modify_eq, hr']
    rfl

theorem threw_eq (h : Twins r s t) : t.threw = s.threw := by
  have hbooks := congrArg WorkerPool.threw h.books
  exact hbooks

theorem setRun (h : Twins r s t) {f g : Run → Run}
    (hfg : ∀ run run' : Run, run.Twins run' → (f run).Twins (g run')) :
    Twins r (s.setRun r f) (t.setRun r g) :=
  h.of_modify h.books rfl rfl hfg

theorem failRun (h : Twins r s t) (err : WorkerPoolError) :
    Twins r (s.failRun o r err) (t.failRun o r err) := by
  obtain ⟨run, run', hr, hr', htwins⟩ := h.runs
  refine h.of_modify ?_ (runs_failRun s r err) (runs_failRun t r err) fun _ _ h => h.failRun err
  rw [books_failRun hr htwins.clean, books_failRun hr' htwins.clean', h.books, htwins.done,
    htwins.workerId, htwins.requestId]

theorem onResult (h : Twins r s t) (msg : Json) :
    Twins r (s.onResult o r msg) (t.onResult o r msg) := by
  obtain ⟨run, run', hr, hr', htwins⟩ := h.runs
  refine h.of_modify ?_ (runs_onResult s r msg) (runs_onResult t r msg) fun _ _ h => h.onResult msg
  rw [books_onResult hr htwins.clean, books_onResult hr' htwins.clean', h.books, htwins.done,
    htwins.workerId, htwins.requestId]

theorem symm (h : Twins r s t) : Twins r t s := by
  obtain ⟨run, run', hr, hr', htwins⟩ := h.runs
  exact ⟨h.books.symm, run', run, hr', hr, htwins.symm⟩

theorem trans {u : WorkerPool} (h : Twins r s t) (h' : Twins r t u) : Twins r s u := by
  obtain ⟨run, run', hr, hr', htwins⟩ := h.runs
  obtain ⟨run₁, run₂, hr₁, hr₂, htwins'⟩ := h'.runs
  obtain rfl := Option.some.inj (hr'.symm.trans hr₁)
  exact ⟨h'.books.trans h.books, run, run₂, hr, hr₂, htwins.trans htwins'⟩

theorem onToken_right (h : Twins r s t) (token : JsString) : Twins r s (t.onToken r token) := by
  obtain ⟨run, run', hr, hr', htwins⟩ := h.runs
  refine ⟨h.books, run, run'.onToken token, hr, ?_, htwins.onToken_right token⟩
  rw [runs_onToken, List.getElem?_modify_eq, hr']
  rfl

theorem onToken_left (h : Twins r s t) (token : JsString) : Twins r (s.onToken r token) t :=
  (h.symm.onToken_right token).symm

/-- A token is handed on where there is someone to hand it on to, and both go on. -/
theorem onFrame (h : Twins r s t) (htwins : run.Twins run') (msg : Json) :
    Twins r (s.onFrame o r run msg).1 (t.onFrame o r run' msg).1 ∧
      (t.onFrame o r run' msg).2 = (s.onFrame o r run msg).2 := by
  have herror : run'.errorFrame o msg = run.errorFrame o msg := by
    unfold Run.errorFrame
    rw [htwins.workerId]
  unfold WorkerPool.onFrame
  cases htype : isType msg "token" with
  | true =>
      simp only [Bool.and_true, not_error_of_token htype, not_result_of_token htype,
        Bool.false_eq_true, if_false]
      split
      · split
        · exact ⟨(h.onToken_left _).onToken_right _, rfl⟩
        · exact ⟨h.onToken_left _, rfl⟩
      · split
        · exact ⟨h.onToken_right _, rfl⟩
        · exact ⟨h, rfl⟩
  | false =>
      simp only [Bool.and_false, Bool.false_eq_true, if_false]
      rw [herror]
      split_ifs
      · exact ⟨h.failRun _, rfl⟩
      · exact ⟨h.onResult msg, rfl⟩
      · exact ⟨h, rfl⟩

/-- The process ends on both paths. -/
theorem threw (h : Twins r s t) : Twins r { s with threw := true } { t with threw := true } :=
  ⟨congrArg (fun u : WorkerPool => { u with threw := true }) h.books, h.runs⟩

theorem onLine (h : Twins r s t) (htoken : TokenHasText line) :
    Twins r (s.onLine o r line).1 (t.onLine o r line).1 ∧
      (t.onLine o r line).2 = (s.onLine o r line).2 := by
  obtain ⟨run, run', hr, hr', htwins⟩ := h.runs
  have hbad : run'.badJson = run.badJson := by
    unfold Run.badJson
    rw [htwins.workerId]
  rw [onLine_eq hr, onLine_eq hr']
  split
  · exact ⟨h, rfl⟩
  · cases hparse : Json.parse line with
    | none =>
        dsimp only
        rw [hbad]
        exact ⟨h.failRun _, rfl⟩
    | some msg =>
        have htext := htwins.textless_eq (o := o) (htoken msg hparse)
        cases msg with
        | null => exact ⟨h.threw, rfl⟩
        | _ =>
            dsimp only
            rw [htext]
            split
            · exact ⟨h.threw, rfl⟩
            · exact h.onFrame htwins _

theorem refl_left (h : Twins r s t) : Twins r s s := h.trans h.symm

theorem refl_right (h : Twins r s t) : Twins r t t := h.symm.trans h

/-- A token only goes to where tokens are handed on. -/
theorem onLine_token (h : Twins r s s) (hline : IsToken line) :
    Twins r s (s.onLine o r line).1 ∧ (s.onLine o r line).2 = true := by
  obtain ⟨run, run', hr, hr', htwins⟩ := h.runs
  obtain ⟨htoken, msg, hparse, htype⟩ := hline
  have htext : textless o run msg = false := by
    simp only [textless, htoken msg hparse htype, not_error_of_token htype,
      not_result_of_token htype, Bool.false_and, Bool.false_eq_true, if_false, ite_self]
  have hframe : Twins r s (s.onFrame o r run msg).1 ∧ (s.onFrame o r run msg).2 = true := by
    simp only [WorkerPool.onFrame, htype, not_error_of_token htype, not_result_of_token htype,
      Bool.and_true, Bool.false_eq_true, if_false]
    split
    · exact ⟨h.onToken_right _, rfl⟩
    · exact ⟨h, rfl⟩
  rw [onLine_eq hr]
  split
  · exact ⟨h, rfl⟩
  · rw [hparse]
    cases msg with
    | null => cases htype
    | _ =>
        dsimp only
        rw [htext]
        exact hframe

theorem drain_cons (s : WorkerPool) (line : JsString) (ls : List JsString) (tail : JsString) :
    drain o r (line :: ls ++ [tail]) s =
      if (s.onLine o r (Json.trim line)).2 then
        drain o r (ls ++ [tail]) (s.onLine o r (Json.trim line)).1
      else ((s.onLine o r (Json.trim line)).1, joined 0x0A ls ++ tail) := by
  obtain ⟨next, more, heq⟩ : ∃ next more, ls ++ [tail] = next :: more :=
    List.exists_cons_of_ne_nil (by simp)
  rw [← intercalate_eq 0x0A ls tail, List.cons_append, heq]
  cases hline : s.onLine o r (Json.trim line) with
  | mk s' goesOn => cases goesOn <;> simp [WorkerPool.drain, hline]

/-- Tokens in front of the other lines are read and change nothing. -/
theorem drain_tokens (h : Twins r s s) (hls : ∀ l ∈ ls, IsToken (Json.trim l))
    (more : List JsString) (tail : JsString) :
    ∃ s', Twins r s s' ∧ drain o r (ls ++ more ++ [tail]) s = drain o r (more ++ [tail]) s' := by
  induction ls generalizing s with
  | nil => exact ⟨s, h, rfl⟩
  | cons line ls ih =>
      obtain ⟨htwins, hgoes⟩ := h.onLine_token (o := o) (hls line List.mem_cons_self)
      obtain ⟨s', htwins', hdrain⟩ := ih htwins.refl_right
        fun l hl => hls l (List.mem_cons_of_mem line hl)
      refine ⟨s', htwins.trans htwins', ?_⟩
      rw [List.cons_append, drain_cons, hgoes, if_pos rfl, hdrain]

/-- The lines of a chunk, and how much of them is left: tokens between the others do not matter. -/
theorem drain (h : Twins r s t) {ls' : List JsString} (hsame : others ls = others ls')
    (hls : ∀ l ∈ ls, TokenHasText (Json.trim l)) (tail tail' : JsString) :
    Twins r (drain o r (ls ++ [tail]) s).1 (drain o r (ls' ++ [tail']) t).1 ∧
      ∃ front back front' back', ls = front ++ back ∧ ls' = front' ++ back' ∧
        others back = others back' ∧ (drain o r (ls ++ [tail]) s).2 = joined 0x0A back ++ tail ∧
        (drain o r (ls' ++ [tail']) t).2 = joined 0x0A back' ++ tail' := by
  induction ls generalizing s t ls' with
  | nil =>
      have htokens : ∀ l ∈ ls', IsToken (Json.trim l) := by
        intro l hl
        by_contra hother
        have hmem : l ∈ others ls' := List.mem_filter.mpr ⟨hl, decide_eq_true hother⟩
        rw [← hsame] at hmem
        cases hmem
      obtain ⟨t', htwins, hdrain⟩ := h.refl_right.drain_tokens (o := o) htokens [] tail'
      rw [List.append_nil] at hdrain
      rw [hdrain]
      exact ⟨h.trans htwins, [], [], ls', [], rfl, (List.append_nil ls').symm, rfl, rfl, rfl⟩
  | cons line ls ih =>
      obtain ⟨hline, hmore⟩ := List.forall_mem_cons.mp hls
      rw [drain_cons]
      by_cases htoken : IsToken (Json.trim line)
      · obtain ⟨htwins, hgoes⟩ := h.refl_left.onLine_token (o := o) htoken
        have hskip : others ls = others ls' := by
          rw [← hsame, others, others, List.filter_cons_of_neg (by simpa using htoken)]
        obtain ⟨hdrained, front, back, front', back', rfl, rfl, hback, hleft, hleft'⟩ :=
          ih (htwins.symm.trans h) hskip hmore
        rw [hgoes, if_pos rfl]
        exact ⟨hdrained, line :: front, back, front', back', rfl, rfl, hback, hleft, hleft'⟩
      · have hcons : others ls' = line :: others ls := by
          rw [← hsame, others, others, List.filter_cons_of_pos (by simpa using htoken)]
        obtain ⟨tokens, rest, rfl, htokens, -, hrest⟩ := List.filter_eq_cons_iff.mp hcons
        obtain ⟨t', htwins, hdrain⟩ := h.refl_right.drain_tokens (o := o)
          (fun l hl => by simpa using htokens l hl) (line :: rest) tail'
        obtain ⟨honLine, hgoes⟩ := (h.trans htwins).onLine (o := o) hline
        rw [hdrain, drain_cons, hgoes]
        split
        · obtain ⟨hdrained, front, back, front', back', rfl, rfl, hback, hleft, hleft'⟩ :=
            ih honLine hrest.symm hmore
          refine ⟨hdrained, line :: front, back, tokens ++ line :: front', back', rfl, ?_, hback,
            hleft, hleft'⟩
          rw [List.append_assoc, List.cons_append]
        · refine ⟨honLine, [line], ls, tokens ++ [line], rest, rfl, ?_, hrest.symm, rfl, rfl⟩
          rw [List.append_assoc, List.singleton_append]

end Twins

end WorkerPool

end ServeInfer.ApiServer
