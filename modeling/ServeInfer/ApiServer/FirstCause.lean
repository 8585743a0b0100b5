import ServeInfer.ApiServer.TokenLines

/-!
# The first cause

What settles a request is read off its events alone: the first of them that ends it.
The connect timer is one of them, but the handlers never hear of it: they hear the
error that it destroys the client with. So a request fails for its first cause
exactly when no other cause comes after its timer has expired.
-/

namespace ServeInfer.ApiServer

/-- What a line comes to for a request that is not settled. -/
inductive Verdict
  | passes
  | settles (outcome : Outcome)
  | throws
  deriving DecidableEq

/-- How far the events have brought a request. -/
inductive Progress
  | waiting (buffer : JsString)
  | settled (outcome : Outcome)
  | threw
  deriving DecidableEq

/-- What comes next matters only to a request that waits. -/
def Progress.andThen (p : Progress) (next : JsString → Progress) : Progress :=
  match p with
  | .waiting buffer => next buffer
  | .settled x => .settled x
  | .threw => .threw

/-- The connect timer of the request expires. -/
def PoolAction.expires (r : ℕ) : PoolAction → Bool
  | .connectTimeout k => k = r
  | _ => false

namespace Run

variable (o : Options)

def frameVerdict (run : Run) (msg : Json) : Verdict :=
  if run.stream && WorkerPool.isType msg "token" then .passes
  else if WorkerPool.isType msg "error" then .settles (.rejected (run.errorFrame o msg))
  else if WorkerPool.isType msg "result" then .settles (.resolved (WorkerPool.frameResult o msg))
  else .passes

def lineVerdict (run : Run) (line : JsString) : Verdict :=
  if line.isEmpty then .passes
  else
    match Json.parse line with
    | none => .settles (.rejected run.badJson)
    | some .null => .throws
    | some msg => if WorkerPool.textless o run msg then .throws else run.frameVerdict o msg

/-- The lines of a buffer, the last of which is not finished. -/
def linesVerdict (run : Run) : List JsString → Progress
  | [] => .waiting []
  | [rest] => .waiting rest
  | line :: lines =>
      match run.lineVerdict o (Json.trim line) with
      | .passes => linesVerdict run lines
      | .settles x => .settled x
      | .throws => .threw

/-- What an event means for request `r` while it waits: each cause has its own outcome. -/
def heard (run : Run) (r : ℕ) (buffer : JsString) : PoolAction → Progress
  | .data k chunk =>
      if k = r then run.linesVerdict o ((buffer ++ Utf8.decode chunk).splitOn 0x0A)
      else .waiting buffer
  | .error k message =>
      if k = r then .settled (.rejected (run.socketError message)) else .waiting buffer
  | .close k => if k = r then .settled (.rejected run.closeError) else .waiting buffer
  | .cancel k => if k = r then .settled (.rejected cancelled) else .waiting buffer
  | .connectTimeout k =>
      if k = r then .settled (.rejected run.connectTimeoutError) else .waiting buffer
  | .supervisor _ (.workerCrashed w _) =>
      if w = run.workerId then .settled (.rejected (WorkerPool.crashError w run.requestId))
      else .waiting buffer
  | _ => .waiting buffer

/-- The events one after the other, up to the first that ends the request. -/
def firstCause (run : Run) (r : ℕ) (as : List PoolAction) : Progress :=
  as.foldl (fun p a => p.andThen fun buffer => run.heard o r buffer a) (.waiting [])

/-- The first cause but for the connect timer. -/
def firstTold (run : Run) (r : ℕ) (as : List PoolAction) : Progress :=
  run.firstCause o r (as.filter fun a => !a.expires r)

/-- No frame that a waiting request reads makes the handler throw, and when the connect timer
expires on a waiting request, nothing else has ended it yet. -/
structure Timely (run : Run) (r : ℕ) (as : List PoolAction) : Prop where
  survives : run.firstTold o r as ≠ .threw
  last : ∀ front back buffer, as = front ++ .connectTimeout r :: back →
    run.firstTold o r front = .waiting buffer → ∃ rest, run.firstTold o r as = .waiting rest

end Run

/-- After the events the request is settled with its first cause and with nothing else; the error
of the connect timer may still be on its way. A frame of its own does not end the process before
it is settled. -/
structure Attributed (o : Options) (run₀ : Run) (r : ℕ) (bs : List PoolAction) (s : WorkerPool) :
    Prop where
  outcome : ∀ run x, s.runs[r]? = some run → run.outcome = some x →
    run₀.firstCause o r bs = .settled x
  settled : ∀ run x, s.runs[r]? = some run → run₀.firstCause o r bs = .settled x →
    run.outcome = some x ∨
      run.outcome = none ∧ run.closed = false ∧ run.destroyError.isSome = true
  survives : ∀ run chunk, s.runs[r]? = some run → bs.getLast? = some (.data r chunk) →
    s.threw = true → run.outcome.isSome = true

/-- So it is all along. -/
def FirstCauseWins (o : Options) (s : WorkerPool) (run₀ : Run) (r : ℕ) (as : List PoolAction) :
    Prop :=
  ∀ bs t, bs <+: as → Machine.exec (poolStep o) s bs = some t → Attributed o run₀ r bs t

namespace Run

variable {o : Options} {run run₀ : Run} {r : ℕ} {as : List PoolAction} {a : PoolAction}
  {b : JsString} {x : Outcome}

section Causes

theorem firstCause_snoc (run : Run) (r : ℕ) (as : List PoolAction) (a : PoolAction) :
    run.firstCause o r (as ++ [a]) =
      (run.firstCause o r as).andThen fun buffer => run.heard o r buffer a := by
  simp only [firstCause, List.foldl_append, List.foldl_cons, List.foldl_nil]

/-- The timer is not heard of. -/
theorem firstTold_snoc (run : Run) (r : ℕ) (as : List PoolAction) (a : PoolAction) :
    run.firstTold o r (as ++ [a]) =
      if a.expires r then run.firstTold o r as
      else (run.firstTold o r as).andThen fun buffer => run.heard o r buffer a := by
  rw [firstTold, List.filter_append]
  cases hexpires : a.expires r with
  | true => simp [hexpires, firstTold]
  | false =>
      rw [List.filter_singleton, hexpires, firstTold, ← firstCause_snoc]
      rfl

/-- A request that is not told anything after some events was not before. -/
theorem waiting_of_append (as bs : List PoolAction)
    (h : run.firstTold o r (as ++ bs) = .waiting b) :
    ∃ b', run.firstTold o r as = .waiting b' := by
  induction bs using List.reverseRecOn generalizing b with
  | nil => exact ⟨b, by rwa [List.append_nil] at h⟩
  | append_singleton bs a ih =>
      rw [← List.append_assoc, firstTold_snoc] at h
      split at h
      · exact ih h
      · cases htold : run.firstTold o r (as ++ bs) with
        | waiting b' => exact ih htold
        | settled x => rw [htold, Progress.andThen] at h; cases h
        | threw => rw [htold, Progress.andThen] at h; cases h

theorem heard_connectTimeout (run : Run) (r : ℕ) (b : JsString) :
    run.heard o r b (.connectTimeout r) = .settled (.rejected run.connectTimeoutError) := by
  rw [heard, if_pos rfl]

theorem eq_of_expires (h : a.expires r = true) : a = .connectTimeout r := by
  unfold PoolAction.expires at h
  split at h
  · rw [of_decide_eq_true h]
  · cases h

/-- The request's first cause is the timer, or the one it is told of. -/
theorem firstCause_cases (run : Run) (r : ℕ) (as : List PoolAction) :
    run.firstCause o r as = run.firstTold o r as ∧
        (∀ front back buffer, as = front ++ .connectTimeout r :: back →
          run.firstTold o r front ≠ .waiting buffer) ∨
      run.firstCause o r as = .settled (.rejected run.connectTimeoutError) ∧
        ∃ front back buffer, as = front ++ .connectTimeout r :: back ∧
          run.firstTold o r front = .waiting buffer := by
  induction as using List.reverseRecOn with
  | nil => exact .inl ⟨rfl, fun front back _ h => absurd h (by simp)⟩
  | append_singleton as a ih =>
      rw [firstCause_snoc, firstTold_snoc]
      obtain ⟨hsame, hnone⟩ | ⟨hfirst, front, back, buffer, rfl, hwaits⟩ := ih
      · have hsplit : (∀ b, a = .connectTimeout r → run.firstTold o r as ≠ .waiting b) →
            ∀ front back buffer, as ++ [a] = front ++ .connectTimeout r :: back →
              run.firstTold o r front ≠ .waiting buffer := by
          intro hlast front back buffer heq
          rcases List.eq_nil_or_concat back with rfl | ⟨back, c, rfl⟩
          · obtain ⟨rfl, ha⟩ := List.append_inj' heq rfl
            exact hlast buffer (List.singleton_inj.mp ha)
          · rw [List.concat_eq_append, ← List.cons_append, ← List.append_assoc] at heq
            obtain ⟨rfl, -⟩ := List.append_inj' heq rfl
            exact hnone front back buffer rfl
        rw [hsame]
        cases hexpires : a.expires r with
        | false =>
            refine .inl ⟨by simp, hsplit ?_⟩
            rintro b rfl
            simp [PoolAction.expires] at hexpires
        | true =>
            obtain rfl := eq_of_expires hexpires
            cases htold : run.firstTold o r as with
            | waiting b =>
                refine .inr ⟨?_, as, [], b, rfl, htold⟩
                rw [Progress.andThen, heard_connectTimeout]
            | settled x => exact .inl ⟨by simp [Progress.andThen], hsplit fun b _ h => by
                rw [htold] at h; cases h⟩
            | threw => exact .inl ⟨by simp [Progress.andThen], hsplit fun b _ h => by
                rw [htold] at h; cases h⟩
      · refine .inr ⟨by rw [hfirst, Progress.andThen], front, back ++ [a], buffer, ?_, hwaits⟩
        rw [List.append_assoc, List.cons_append]

/-- What a line settles a request with is not the timer's error. -/
theorem ne_timeout_of_lineVerdict {line : JsString} (h : run.lineVerdict o line = .settles x) :
    x ≠ .rejected run.connectTimeoutError := by
  have hframe : ∀ msg, run.frameVerdict o msg = .settles x → x ≠ .rejected run.connectTimeoutError := by
    intro msg hmsg
    unfold frameVerdict at hmsg
    split_ifs at hmsg
    · obtain rfl := Verdict.settles.inj hmsg
      intro heq
      cases congrArg WorkerPoolError.code (Outcome.rejected.inj heq)
    · obtain rfl := Verdict.settles.inj hmsg
      exact fun heq => Outcome.noConfusion heq
  unfold lineVerdict at h
  split at h
  · cases h
  · split at h
    · obtain rfl := Verdict.settles.inj h
      intro heq
      cases congrArg WorkerPoolError.code (Outcome.rejected.inj heq)
    · cases h
    · split at h
      · cases h
      · exact hframe _ h

theorem ne_timeout_of_linesVerdict {lines : List JsString}
    (h : run.linesVerdict o lines = .settled x) : x ≠ .rejected run.connectTimeoutError := by
  induction lines with
  | nil => cases h
  | cons line lines ih =>
      cases lines with
      | nil => cases h
      | cons next lines =>
          unfold linesVerdict at h
          cases hline : run.lineVerdict o (Json.trim line) with
          | passes => rw [hline] at h; exact ih h
          | settles y =>
              rw [hline] at h
              obtain rfl := Progress.settled.inj h
              exact ne_timeout_of_lineVerdict hline
          | throws => rw [hline] at h; cases h

theorem ne_timeout_of_heard (hexpires : a.expires r = false)
    (h : run.heard o r b a = .settled x) : x ≠ .rejected run.connectTimeoutError := by
  have hcode : ∀ err : WorkerPoolError, err.code ≠ .workerConnectTimeout →
      Progress.settled (.rejected err) = .settled x → x ≠ .rejected run.connectTimeoutError := by
    intro err hcode hx heq
    obtain rfl := Progress.settled.inj hx
    exact hcode (congrArg WorkerPoolError.code (Outcome.rejected.inj heq))
  unfold heard at h
  split at h
  · split at h
    · exact ne_timeout_of_linesVerdict h
    · cases h
  · split at h
    · exact hcode _ (by simp [socketError]) h
    · cases h
  · split at h
    · exact hcode _ (by simp [closeError]) h
    · cases h
  · split at h
    · exact hcode _ (by simp [cancelled]) h
    · cases h
  · split at h
    · rename_i hk
      simp [PoolAction.expires, hk] at hexpires
    · cases h
  · split at h
    · exact hcode _ (by simp [WorkerPool.crashError]) h
    · cases h
  · cases h

/-- No request is ever told that its connect timer has expired. -/
theorem firstTold_ne_timeout (run : Run) (r : ℕ) (as : List PoolAction) :
    run.firstTold o r as ≠ .settled (.rejected run.connectTimeoutError) := by
  induction as using List.reverseRecOn with
  | nil => simp [firstTold, firstCause]
  | append_singleton as a ih =>
      rw [firstTold_snoc]
      cases hexpires : a.expires r with
      | true => exact ih
      | false =>
          rw [if_neg (by decide)]
          cases htold : run.firstTold o r as with
          | waiting b => exact fun h => ne_timeout_of_heard hexpires h rfl
          | settled x =>
              rw [Progress.andThen]
              exact htold ▸ ih
          | threw => simp [Progress.andThen]

end Causes

/-- A run that waits still, and was opened as `run₀`. -/
structure Waits (run₀ run : Run) : Prop where
  fresh : run₀.done = false
  workerId : run.workerId = run₀.workerId
  requestId : run.requestId = run₀.requestId
  stream : run.stream = run₀.stream
  done : run.done = false
  outcome : run.outcome = none

section Waits

variable {msg : Json} {line : JsString}

theorem Waits.onToken (h : run₀.Waits run) (token : JsString) : run₀.Waits (run.onToken token) :=
  { h with }

theorem Waits.connect (h : run₀.Waits run) : run₀.Waits run.connect := { h with }

theorem Waits.setBuffer (h : run₀.Waits run) (b : JsString) : run₀.Waits (run.setBuffer b) :=
  { h with }

theorem Waits.timeOut (h : run₀.Waits run) :
    run₀.Waits run.timeOut ∧ run.timeOut.buffer = run.buffer := by
  unfold Run.timeOut Run.destroy
  split
  · exact ⟨{ h with }, rfl⟩
  · exact ⟨{ h with }, rfl⟩

/-- Whatever fails a run that waits settles it. -/
theorem Waits.outcome_failRun (h : run₀.Waits run) (err : WorkerPoolError) :
    (run.failRun err).outcome = some (.rejected err) := by
  rw [failRun_of_open h.done]
  have hsettle : ∀ t : Run, t.outcome = run.outcome →
      (t.settle (.rejected err)).outcome = some (.rejected err) := by
    intro t ht
    rw [settle, ht, h.outcome]
    rfl
  split
  · exact hsettle _ (outcome_destroy run.finish none)
  · exact hsettle _ rfl

theorem Waits.outcome_failInFlight (h : run₀.Waits run) (err : WorkerPoolError) :
    (run.failInFlight err).outcome = some (.rejected err) := by
  have hout := h.outcome_failRun err
  cases hstream : run.stream with
  | true => rwa [failRun, if_pos hstream] at hout
  | false =>
      have hdestroyed : run₀.Waits (run.destroy none) := by
        unfold destroy
        split
        · exact h
        · exact { h with }
      have hbuffered : (run.destroy none).stream = false := hdestroyed.stream.trans (h.stream ▸ hstream)
      have hdout := hdestroyed.outcome_failRun err
      rw [failRun, if_neg (by simp [hbuffered])] at hdout
      rwa [failInFlight, if_neg (by simp [hstream])]

theorem Waits.outcome_onError (h : run₀.Waits run) (message : JsString) :
    (run.onError message).outcome = some (.rejected (run₀.socketError message)) := by
  have hopen : run₀.Waits { run with destroyed := true, destroyError := none } := { h with }
  have herror : run₀.socketError message = run.socketError message := by
    unfold socketError
    rw [h.workerId]
  rw [herror]
  exact hopen.outcome_failRun (run.socketError message)

theorem Waits.outcome_onClose (h : run₀.Waits run) :
    run.onClose.outcome = some (.rejected run₀.closeError) := by
  have hopen : run₀.Waits { run with destroyed := true, closed := true } := { h with }
  have hclose : run₀.closeError = run.closeError := by
    unfold closeError
    rw [h.workerId]
  rw [hclose, onClose, if_neg (by simp [h.done])]
  exact hopen.outcome_failRun run.closeError

theorem Waits.outcome_onResult (h : run₀.Waits run) (msg : Json) :
    (run.onResult o msg).outcome = some (.resolved (WorkerPool.frameResult o msg)) := by
  rw [onResult_of_open h.done, settle]
  show (run.outcome <|> _) = _
  rw [h.outcome]
  rfl

/-- What a line means does not change while the run waits. -/
theorem Waits.lineVerdict_eq (h : run₀.Waits run) (line : JsString) :
    run₀.lineVerdict o line = run.lineVerdict o line := by
  have hbad : run₀.badJson = run.badJson := by
    unfold badJson
    rw [h.workerId]
  have htext : ∀ msg, WorkerPool.textless o run₀ msg = WorkerPool.textless o run msg := by
    intro msg
    unfold WorkerPool.textless
    rw [h.stream, h.fresh, h.done]
  have hframe : ∀ msg, run₀.frameVerdict o msg = run.frameVerdict o msg := by
    intro msg
    unfold frameVerdict errorFrame
    rw [h.stream, h.workerId]
  unfold lineVerdict
  simp only [hbad, htext, hframe]

end Waits

end Run

namespace WorkerPool

variable {o : Options} {s s' : WorkerPool} {r : ℕ} {run run₀ : Run} {a : PoolAction} {line : JsString}
  {x : Outcome} {p : Progress}

section Lines

/-- A line's verdict beside what the handler does with it. -/
theorem onLine_cases (hr : s.runs[r]? = some run) (line : JsString) :
    run.lineVerdict o line = .passes ∧ s.onLine o r line = (s, true) ∨
      run.lineVerdict o line = .settles (.rejected run.badJson) ∧
        s.onLine o r line = (s.failRun o r run.badJson, false) ∨
      run.lineVerdict o line = .throws ∧ s.onLine o r line = ({ s with threw := true }, false) ∨
      ∃ msg, run.lineVerdict o line = run.frameVerdict o msg ∧
        s.onLine o r line = s.onFrame o r run msg := by
  rw [onLine_eq hr]
  unfold Run.lineVerdict
  cases hempty : line.isEmpty with
  | true => exact .inl ⟨rfl, rfl⟩
  | false =>
      cases Json.parse line with
      | none => exact .inr (.inl ⟨rfl, rfl⟩)
      | some msg =>
          cases msg with
          | null => exact .inr (.inr (.inl ⟨rfl, rfl⟩))
          | _ =>
              simp only [Bool.false_eq_true, if_false]
              split_ifs
              · exact .inr (.inr (.inl ⟨rfl, rfl⟩))
              · exact .inr (.inr (.inr ⟨_, rfl, rfl⟩))

/-- A line that passes leaves the run waiting, and the handler goes on. -/
theorem onLine_of_passes (hr : s.runs[r]? = some run) (h : run₀.Waits run)
    (hline : run.lineVerdict o line = .passes) :
    (s.onLine o r line).2 = true ∧ (s.onLine o r line).1.threw = s.threw ∧
      ∃ run', (s.onLine o r line).1.runs[r]? = some run' ∧ run₀.Waits run' := by
  obtain ⟨-, heq⟩ | ⟨hv, -⟩ | ⟨hv, -⟩ | ⟨msg, hv, heq⟩ := onLine_cases (o := o) hr line
  · rw [heq]
    exact ⟨rfl, rfl, run, hr, h⟩
  · cases hv.symm.trans hline
  · cases hv.symm.trans hline
  · rw [hv] at hline
    rw [heq]
    unfold Run.frameVerdict at hline
    unfold onFrame
    split_ifs at hline ⊢
    · refine ⟨rfl, rfl, run.onToken (coalesce o (msg.get? "token") ""), ?_, h.onToken _⟩
      rw [runs_onToken, List.getElem?_modify_eq, hr]
      rfl
    · exact ⟨rfl, rfl, run, hr, h⟩

/-- A line that settles the run ends the handler's way. -/
theorem onLine_of_settles (hr : s.runs[r]? = some run) (h : run₀.Waits run)
    (hline : run.lineVerdict o line = .settles x) :
    (s.onLine o r line).2 = false ∧
      ∃ run', (s.onLine o r line).1.runs[r]? = some run' ∧ run'.outcome = some x := by
  have hfail : ∀ err, Verdict.settles (.rejected err) = .settles x →
      ∃ run', (s.failRun o r err).runs[r]? = some run' ∧ run'.outcome = some x := by
    intro err hx
    obtain rfl := Verdict.settles.inj hx
    refine ⟨run.failRun err, ?_, h.outcome_failRun err⟩
    rw [runs_failRun, List.getElem?_modify_eq, hr]
    rfl
  obtain ⟨hv, -⟩ | ⟨hv, heq⟩ | ⟨hv, -⟩ | ⟨msg, hv, heq⟩ := onLine_cases (o := o) hr line
  · cases hv.symm.trans hline
  · rw [heq]
    exact ⟨rfl, hfail _ (hv.symm.trans hline)⟩
  · cases hv.symm.trans hline
  · rw [hv] at hline
    rw [heq]
    unfold Run.frameVerdict at hline
    unfold onFrame
    split_ifs at hline ⊢
    · exact ⟨rfl, hfail _ hline⟩
    · obtain rfl := Verdict.settles.inj hline
      refine ⟨rfl, run.onResult o msg, ?_, h.outcome_onResult msg⟩
      rw [runs_onResult, List.getElem?_modify_eq, hr]
      rfl

theorem onLine_of_throws (hr : s.runs[r]? = some run)
    (hline : run.lineVerdict o line = .throws) :
    s.onLine o r line = ({ s with threw := true }, false) := by
  obtain ⟨hv, -⟩ | ⟨hv, -⟩ | ⟨-, heq⟩ | ⟨msg, hv, -⟩ := onLine_cases (o := o) hr line
  · cases hv.symm.trans hline
  · cases hv.symm.trans hline
  · exact heq
  · rw [hv] at hline
    unfold Run.frameVerdict at hline
    split_ifs at hline

/-- The pool has come as far with the request as the events say. -/
def Reached (s : WorkerPool) (r : ℕ) (run₀ : Run) : Progress → Prop
  | .waiting buffer => ∃ run, s.runs[r]? = some run ∧ run₀.Waits run ∧ run.buffer = buffer
  | .settled x => ∃ run, s.runs[r]? = some run ∧ run.outcome = some x
  | .threw => s.threw = true ∧ ∃ run, s.runs[r]? = some run ∧ run.outcome = none

theorem getElem?_setBuffer (hr : s.runs[r]? = some run) (b : JsString) :
    (s.setRun r fun run => { run with buffer := b }).runs[r]? = some (run.setBuffer b) := by
  rw [runs_setRun, List.getElem?_modify_eq, hr]
  rfl

/-- The request's outcome is the one that the events have brought it to. -/
theorem Reached.outcome_iff (h : s.Reached r run₀ p) (hr : s.runs[r]? = some run) (x : Outcome) :
    run.outcome = some x ↔ p = .settled x := by
  cases p with
  | waiting b =>
      obtain ⟨run', hr', hwaits, -⟩ := h
      obtain rfl := Option.some.inj (hr'.symm.trans hr)
      simp [hwaits.outcome]
  | settled y =>
      obtain ⟨run', hr', hout⟩ := h
      obtain rfl := Option.some.inj (hr'.symm.trans hr)
      simp [hout]
  | threw =>
      obtain ⟨-, run', hr', hout⟩ := h
      obtain rfl := Option.some.inj (hr'.symm.trans hr)
      simp [hout]

/-- The lines of a chunk bring the request as far as they say, and as long as it waits the handler
has not thrown. -/
theorem reached_drain (hr : s.runs[r]? = some run) (h : run₀.Waits run) (lines : List JsString) :
    ((drain o r lines s).1.setRun r fun run => { run with buffer := (drain o r lines s).2 }).Reached
        r run₀ (run₀.linesVerdict o lines) ∧
      ∀ b, run₀.linesVerdict o lines = .waiting b → (drain o r lines s).1.threw = s.threw := by
  induction lines generalizing s run with
  | nil => exact ⟨⟨_, getElem?_setBuffer hr [], h.setBuffer [], rfl⟩, fun _ _ => rfl⟩
  | cons line lines ih =>
      cases lines with
      | nil => exact ⟨⟨_, getElem?_setBuffer hr line, h.setBuffer line, rfl⟩, fun _ _ => rfl⟩
      | cons next lines =>
          have hsame := h.lineVerdict_eq (o := o) (Json.trim line)
          unfold drain Run.linesVerdict
          rw [hsame]
          cases hv : run.lineVerdict o (Json.trim line) with
          | passes =>
              obtain ⟨hgoes, hthrew, run', hr', h'⟩ := onLine_of_passes hr h hv
              cases hline : s.onLine o r (Json.trim line) with
              | mk t goesOn =>
                  rw [hline] at hgoes hthrew hr'
                  dsimp only at hgoes hthrew hr'
                  subst hgoes
                  obtain ⟨hreached, hquiet⟩ := ih hr' h'
                  exact ⟨hreached, fun b hb => (hquiet b hb).trans hthrew⟩
          | settles x =>
              obtain ⟨hstops, run', hr', hout⟩ := onLine_of_settles hr h hv
              cases hline : s.onLine o r (Json.trim line) with
              | mk t goesOn =>
                  rw [hline] at hstops hr'
                  dsimp only at hstops hr'
                  subst hstops
                  exact ⟨⟨_, getElem?_setBuffer hr' _, hout⟩, fun b hb => by cases hb⟩
          | throws =>
              rw [onLine_of_throws hr hv]
              have hthrew : ({ s with threw := true } : WorkerPool).runs[r]? = some run := hr
              exact ⟨⟨rfl, _, getElem?_setBuffer hthrew _, h.outcome⟩, fun b hb => by cases hb⟩

theorem reached_onData (hr : s.runs[r]? = some run) (h : run₀.Waits run) (chunk : List UInt8) :
    (s.onData o r chunk).Reached r run₀
        (run₀.linesVerdict o ((run.buffer ++ Utf8.decode chunk).splitOn 0x0A)) ∧
      ∀ b, run₀.linesVerdict o ((run.buffer ++ Utf8.decode chunk).splitOn 0x0A) = .waiting b →
        (s.onData o r chunk).threw = s.threw := by
  unfold onData
  rw [hr]
  exact reached_drain hr h _

end Lines

section Steps

/-- A notice of its worker's death fails the run that waits on the worker. -/
theorem Booked.runs_crash (h : s.Booked) (hr : s.runs[r]? = some run) (hdone : run.done = false) :
    (s.markWorkerCrashed o run.workerId []).runs[r]? =
      some (run.failInFlight (crashError run.workerId run.requestId)) := by
  have hcore : s.cores[r]? = some run.core := by rw [getElem?_cores, hr, Option.map_some]
  obtain ⟨hfiled, -⟩ := h.filed hcore hdone
  obtain ⟨-, hbusy⟩ := h.entry hfiled
  obtain ⟨e, he, -⟩ := Option.map_eq_some_iff.mp hbusy
  have hworker : s.workers.get? run.workerId = some e := he
  have hentries : (s.inFlight.entries.filter fun e => e.2.workerId = run.workerId) =
      [(run.requestId, ⟨run.workerId, r⟩)] := by
    obtain ⟨-, hidle⟩ | ⟨id, e', hone, hget, hworker, -⟩ := h.entries_of run.workerId
    · exact absurd hbusy hidle
    · obtain rfl := h.unique hget hfiled hworker
      obtain rfl := Option.some.inj (hget.symm.trans hfiled)
      exact hone
  have haffected : (s.setWorker run.workerId fun e => { e with status := .crashed }).affected
      run.workerId [] = [(run.requestId, ⟨run.workerId, r⟩)] := by
    rw [← hentries]
    simp only [affected, List.isEmpty_nil, inFlight_setWorker]
  unfold markWorkerCrashed
  rw [hworker]
  dsimp only
  rw [haffected, runs_scheduleRecoveryProbe, runs_setWorker, runs_clearTimeout, List.foldl_cons,
    List.foldl_nil, runs_failInFlight, runs_setWorker, List.getElem?_modify_eq, hr]
  rfl

/-- A notice of another worker's death leaves the run alone. -/
theorem Booked.runs_crash_of_ne (h : s.Booked) (hr : s.runs[r]? = some run) {w : ℤ}
    (hne : w ≠ run.workerId) : (s.markWorkerCrashed o w []).runs[r]? = some run := by
  rw [runs_markWorkerCrashed, hr]
  rintro id e he rfl rfl
  obtain ⟨⟨c, hc, hworker, -, -⟩, -⟩ := h.entry he
  rw [getElem?_cores, hr, Option.map_some, Option.some.injEq] at hc
  exact hne (hworker.symm.trans (congrArg Core.workerId hc.symm))

/-- A step that nothing of the request's is in leaves its run alone. -/
theorem get_of_step (hs : poolStep o s a = some s') (hr : s.runs[r]? = some run)
    (ha : ∀ now w id, a ≠ .supervisor now (.workerCrashed w id))
    (hnone : ∀ run', ¬ Happens o a r run run') : s'.runs[r]? = some run := by
  obtain ⟨run', hr', rfl | h | ⟨now, w, id, heq, -⟩⟩ := touched_of_step hs r hr
  · exact hr'
  · exact absurd h (hnone run')
  · exact absurd heq (ha now w id)

/-- A step brings a request that waits as far as its event says. -/
theorem reached_of_waiting (hbooked : s.Booked) (ha : a.plain) (hs : poolStep o s a = some s')
    {b : JsString} (h : s.Reached r run₀ (.waiting b)) :
    s'.Reached r run₀ (if a.expires r then .waiting b else run₀.heard o r b a) := by
  obtain ⟨run, hr, hwaits, rfl⟩ := h
  have hget : ∀ f : Run → Run, s'.runs = s.runs.modify r f → s'.runs[r]? = some (f run) := by
    intro f hruns
    rw [hruns, List.getElem?_modify_eq, hr]
    rfl
  have hcrashed : ∀ err, s'.runs[r]? = some (run.failInFlight err) →
      s'.Reached r run₀ (.settled (.rejected err)) :=
    fun err hr' => ⟨run.failInFlight err, hr', hwaits.outcome_failInFlight err⟩
  have hquiet : (∀ now w id, a ≠ .supervisor now (.workerCrashed w id)) →
      (∀ run', ¬ Happens o a r run run') → s'.Reached r run₀ (.waiting run.buffer) :=
    fun hmsg hnone => ⟨run, get_of_step hs hr hmsg hnone, hwaits, rfl⟩
  unfold poolStep at hs
  split at hs
  · cases hs
  cases a with
  | infer reading request => exact hquiet (by simp) (by rintro run' ⟨⟩)
  | getHealth reading => exact hquiet (by simp) (by rintro run' ⟨⟩)
  | recoveryTimer id reading => exact hquiet (by simp) (by rintro run' ⟨⟩)
  | probe id now alive => exact hquiet (by simp) (by rintro run' ⟨⟩)
  | supervisor now msg =>
      cases msg with
      | workerRestarted w => exact hquiet (by simp) (by rintro run' ⟨⟩)
      | workerReady w => exact hquiet (by simp) (by rintro run' ⟨⟩)
      | workerCrashed w id =>
          obtain rfl : id = [] := ha
          obtain rfl := Option.some.inj hs
          by_cases hw : w = run₀.workerId
          · obtain rfl := hw.trans hwaits.workerId.symm
            have hcrash := hcrashed _ (hbooked.runs_crash (o := o) hr hwaits.done)
            rw [hwaits.requestId] at hcrash
            simpa [PoolAction.expires, Run.heard, hw] using hcrash
          · have hother := hbooked.runs_crash_of_ne (o := o) hr (w := w) fun h =>
              hw (h.trans hwaits.workerId)
            have hstill : (s.handleSupervisorMessage o now (.workerCrashed w [])).Reached r run₀
                (.waiting run.buffer) := ⟨run, hother, hwaits, rfl⟩
            simpa [PoolAction.expires, Run.heard, hw] using hstill
  | connect k =>
      by_cases hk : k = r
      · subst hk
        obtain ⟨-, -, -, rfl⟩ := guardRun_eq hs
        exact ⟨run.connect, hget Run.connect (runs_setRun s k _), hwaits.connect, rfl⟩
      · exact hquiet (by simp) (by rintro run' ⟨⟩; exact hk rfl)
  | data k chunk =>
      by_cases hk : k = r
      · subst hk
        obtain ⟨-, -, -, rfl⟩ := guardRun_eq hs
        simpa [PoolAction.expires, Run.heard] using (reached_onData hr hwaits chunk).1
      · simpa [PoolAction.expires, Run.heard, hk] using
          hquiet (by simp) (by rintro run' ⟨⟩; exact hk rfl)
  | error k message =>
      by_cases hk : k = r
      · subst hk
        obtain ⟨-, -, -, rfl⟩ := guardRun_eq hs
        have herror : ((s.errored k).onError o k message).Reached k run₀
            (.settled (.rejected (run₀.socketError message))) :=
          ⟨_, hget _ (runs_onError s k message), hwaits.outcome_onError message⟩
        simpa [PoolAction.expires, Run.heard] using herror
      · simpa [PoolAction.expires, Run.heard, hk] using
          hquiet (by simp) (by rintro run' ⟨⟩; exact hk rfl)
  | close k =>
      by_cases hk : k = r
      · subst hk
        obtain ⟨-, -, -, rfl⟩ := guardRun_eq hs
        have hclose : ((s.closed k).onClose o k).Reached k run₀
            (.settled (.rejected run₀.closeError)) :=
          ⟨_, hget _ (runs_onClose s k), hwaits.outcome_onClose⟩
        simpa [PoolAction.expires, Run.heard] using hclose
      · simpa [PoolAction.expires, Run.heard, hk] using
          hquiet (by simp) (by rintro run' ⟨⟩; exact hk rfl)
  | cancel k =>
      by_cases hk : k = r
      · subst hk
        obtain ⟨-, -, -, rfl⟩ := guardRun_eq hs
        have hcancel := hcrashed Run.cancelled (hget _ (runs_failInFlight s k _))
        simpa [PoolAction.expires, Run.heard] using hcancel
      · simpa [PoolAction.expires, Run.heard, hk] using
          hquiet (by simp) (by rintro run' ⟨⟩; exact hk rfl)
  | connectTimeout k =>
      by_cases hk : k = r
      · subst hk
        obtain ⟨-, -, -, rfl⟩ := guardRun_eq hs
        obtain ⟨htimed, hbuffer⟩ := hwaits.timeOut
        have hstill : (s.connectTimeout k).Reached k run₀ (.waiting run.buffer) :=
          ⟨run.timeOut, hget Run.timeOut (runs_connectTimeout s k), htimed, hbuffer⟩
        simpa [PoolAction.expires] using hstill
      · simpa [PoolAction.expires, Run.heard, hk] using
          hquiet (by simp) (by rintro run' ⟨⟩; exact hk rfl)

/-- A step of a run that the pool has come along with. -/
theorem Reached.step (h : s.Reached r run₀ p) (hbooked : s.Booked) (ha : a.plain)
    (hs : poolStep o s a = some s') :
    s'.Reached r run₀ (if a.expires r then p else p.andThen fun b => run₀.heard o r b a) := by
  cases p with
  | waiting b => exact reached_of_waiting hbooked ha hs h
  | settled x =>
      obtain ⟨run, hr, hout⟩ := h
      have hstill : s'.Reached r run₀ (.settled x) := by
        obtain ⟨run', hr', hlater | ⟨-, -, rfl⟩⟩ := later_of_step hs hr
        · exact ⟨run', hr', hlater.outcome x hout⟩
        · exact ⟨run.connect, hr', hout⟩
      simpa [Progress.andThen] using hstill
  | threw =>
      unfold poolStep at hs
      rw [if_pos h.1] at hs
      cases hs

/-- After any events the pool is where the events that it hears of have brought the request. -/
theorem reached_of_exec {as : List PoolAction} {t : WorkerPool} (hbooked : s.Booked)
    (hstart : s.Reached r run₀ (.waiting [])) (hplain : ∀ a ∈ as, a.plain)
    (hrun : Machine.exec (poolStep o) s as = some t) :
    t.Booked ∧ t.Reached r run₀ (run₀.firstTold o r as) := by
  induction as using List.reverseRecOn generalizing t with
  | nil =>
      obtain rfl := Option.some.inj hrun
      exact ⟨hbooked, hstart⟩
  | append_singleton as a ih =>
      rw [Machine.exec_snoc] at hrun
      obtain ⟨u, hu, hstep⟩ := Option.bind_eq_some_iff.mp hrun
      obtain ⟨hbooked', hreached⟩ := ih (fun a ha => hplain a (List.mem_append_left _ ha)) hu
      have ha : a.plain := hplain a (by simp)
      rw [Run.firstTold_snoc]
      exact ⟨hbooked'.step ha hstep, hreached.step hbooked' ha hstep⟩

/-- The timer destroys the client. -/
theorem destroyed_of_expired {as : List PoolAction} {t : WorkerPool}
    (hstart : s.runs[r]? = some run₀) (hrun : Machine.exec (poolStep o) s as = some t)
    (hexpired : .connectTimeout r ∈ as) :
    ∃ run, t.runs[r]? = some run ∧ run.destroyed = true := by
  have hkept : ∀ {as t}, Machine.exec (poolStep o) s as = some t →
      ∃ run, t.runs[r]? = some run := by
    intro as t hrun
    refine Machine.exec_invariant (P := fun t : WorkerPool => ∃ run, t.runs[r]? = some run)
      ⟨run₀, hstart⟩ ?_ hrun
    rintro u a u' ⟨run, hr⟩ hstep
    obtain ⟨run', hr', -⟩ := later_of_step hstep hr
    exact ⟨run', hr'⟩
  induction as using List.reverseRecOn generalizing t with
  | nil => cases hexpired
  | append_singleton as a ih =>
      rw [Machine.exec_snoc] at hrun
      obtain ⟨u, hu, hstep⟩ := Option.bind_eq_some_iff.mp hrun
      rcases List.mem_append.mp hexpired with hearlier | hlast
      · obtain ⟨run, hr, hdestroyed⟩ := ih hu hearlier
        obtain ⟨run', hr', hlater | ⟨-, -, rfl⟩⟩ := later_of_step hstep hr
        · exact ⟨run', hr', hlater.destroyed hdestroyed⟩
        · exact ⟨run.connect, hr', hdestroyed⟩
      · obtain rfl := List.mem_singleton.mp hlast
        obtain ⟨run, hr⟩ := hkept hu
        unfold poolStep at hstep
        split at hstep
        · cases hstep
        obtain ⟨-, -, -, rfl⟩ := guardRun_eq hstep
        refine ⟨run.timeOut, ?_, Run.destroyed_destroy _ _⟩
        rw [runs_connectTimeout, List.getElem?_modify_eq, hr]
        rfl

/-- A chunk that leaves the request waiting has not ended the process. -/
theorem threw_of_waiting {chunk : List UInt8} {b b' : JsString}
    (h : s.Reached r run₀ (.waiting b)) (hs : poolStep o s (.data r chunk) = some s')
    (hwaits : run₀.heard o r b (.data r chunk) = .waiting b') : s'.threw = false := by
  obtain ⟨run, hr, hopen, rfl⟩ := h
  unfold poolStep at hs
  split at hs
  · cases hs
  rename_i hlive
  obtain ⟨-, -, -, rfl⟩ := guardRun_eq hs
  rw [Run.heard, if_pos rfl] at hwaits
  rw [(reached_onData hr hopen chunk).2 b' hwaits]
  exact eq_false_of_ne_true hlive

end Steps

section Main

variable {as bs : List PoolAction} {t : WorkerPool}

/-- Only data makes a handler throw. -/
theorem eq_data_of_threw {b : JsString} (h : run₀.heard o r b a = .threw) :
    ∃ chunk, a = .data r chunk := by
  unfold Run.heard at h
  split at h
  · split at h
    · rename_i hk
      exact ⟨_, by rw [hk]⟩
    · cases h
  all_goals
    try split at h
    all_goals cases h

/-- Where the handler throws, it does so on the last chunk. -/
theorem getLast?_of_threw (hrun : Machine.exec (poolStep o) s bs = some t) (hbooked : s.Booked)
    (hstart : s.Reached r run₀ (.waiting [])) (hplain : ∀ a ∈ bs, a.plain)
    (htold : run₀.firstTold o r bs = .threw) : ∃ chunk, bs.getLast? = some (.data r chunk) := by
  rcases List.eq_nil_or_concat bs with rfl | ⟨front, a, rfl⟩
  · cases htold
  · rw [List.concat_eq_append] at hrun htold hplain ⊢
    rw [Machine.exec_snoc] at hrun
    obtain ⟨u, hu, hstep⟩ := Option.bind_eq_some_iff.mp hrun
    obtain ⟨-, hreached⟩ := reached_of_exec hbooked hstart
      (fun a ha => hplain a (List.mem_append_left _ ha)) hu
    have hdead : u.Reached r run₀ .threw → False := by
      intro hthrew
      unfold poolStep at hstep
      rw [if_pos hthrew.1] at hstep
      cases hstep
    rw [Run.firstTold_snoc] at htold
    cases hfront : run₀.firstTold o r front with
    | waiting b =>
        rw [hfront] at htold
        split at htold
        · cases htold
        · obtain ⟨chunk, rfl⟩ := eq_data_of_threw htold
          exact ⟨chunk, by simp⟩
    | settled x =>
        rw [hfront] at htold
        split at htold <;> cases htold
    | threw => exact (hdead (hfront ▸ hreached)).elim

/-- The request is settled with its first cause exactly when the events are timely. -/
theorem attributed_iff_timely (hbooked : s.Booked) (hkept : s.RunsKept)
    (hr : s.runs[r]? = some run₀) (hopen : run₀.Waits run₀) (hbuffer : run₀.buffer = [])
    (hplain : ∀ a ∈ bs, a.plain) (hrun : Machine.exec (poolStep o) s bs = some t) :
    Attributed o run₀ r bs t ↔ run₀.Timely o r bs := by
  have hstart : s.Reached r run₀ (.waiting []) := ⟨run₀, hr, hopen, hbuffer⟩
  obtain ⟨-, hreached⟩ := reached_of_exec hbooked hstart hplain hrun
  constructor
  · intro h
    have hsurvives : run₀.firstTold o r bs ≠ .threw := by
      intro htold
      obtain ⟨chunk, hlast⟩ := getLast?_of_threw hrun hbooked hstart hplain htold
      rw [htold] at hreached
      obtain ⟨hthrew, run, hr', hout⟩ := hreached
      have hsome := h.survives run chunk hr' hlast hthrew
      rw [hout] at hsome
      cases hsome
    refine ⟨hsurvives, ?_⟩
    intro front back buffer heq hwaits
    obtain ⟨-, hnone⟩ | ⟨hfirst, -⟩ := run₀.firstCause_cases (o := o) r bs
    · exact absurd hwaits (hnone front back buffer heq)
    · cases htold : run₀.firstTold o r bs with
      | waiting b => exact ⟨b, rfl⟩
      | threw => exact absurd htold hsurvives
      | settled x =>
          rw [htold] at hreached
          obtain ⟨run, hr', hout⟩ := hreached
          have hcause := (h.outcome run x hr' hout).symm.trans hfirst
          rw [Progress.settled.inj hcause] at htold
          exact absurd htold (run₀.firstTold_ne_timeout r bs)
  · intro h
    -- With the timer among the causes nothing else has ended the request.
    have hcases : run₀.firstCause o r bs = run₀.firstTold o r bs ∨
        run₀.firstCause o r bs = .settled (.rejected run₀.connectTimeoutError) ∧
          .connectTimeout r ∈ bs ∧ ∃ b, run₀.firstTold o r bs = .waiting b := by
      obtain ⟨hsame, -⟩ | ⟨hfirst, front, back, buffer, heq, hwaits⟩ :=
        run₀.firstCause_cases (o := o) r bs
      · exact .inl hsame
      · refine .inr ⟨hfirst, ?_, h.last front back buffer heq hwaits⟩
        rw [heq]
        simp
    constructor
    · intro run x hr' hout
      have htold := (hreached.outcome_iff hr' x).mp hout
      obtain hsame | ⟨-, -, b, hwaits⟩ := hcases
      · rw [hsame, htold]
      · cases htold.symm.trans hwaits
    · intro run x hr' hcause
      obtain hsame | ⟨-, hexpired, b, hwaits⟩ := hcases
      · exact .inl ((hreached.outcome_iff hr' x).mpr (hsame.symm.trans hcause))
      · obtain ⟨run', hr'', hstill, -⟩ : t.Reached r run₀ (.waiting b) := hwaits ▸ hreached
        obtain rfl := Option.some.inj (hr''.symm.trans hr')
        obtain ⟨run', hr'', hdestroyed⟩ := destroyed_of_expired hr hrun hexpired
        obtain rfl := Option.some.inj (hr''.symm.trans hr')
        have hkept' : t.RunsKept :=
          Machine.exec_invariant hkept (fun _ _ _ h hs => h.step hs) hrun
        obtain ⟨hclosed, herror⟩ := (hkept' r _ hr').socket hstill.done
        exact .inr ⟨hstill.outcome, hclosed, herror hdestroyed⟩
    · intro run chunk hr' hlast hthrew
      cases htold : run₀.firstTold o r bs with
      | threw => exact absurd htold h.survives
      | settled x => rw [(hreached.outcome_iff hr' x).mpr htold, Option.isSome_some]
      | waiting b =>
          obtain ⟨front, rfl⟩ := List.getLast?_eq_some_iff.mp hlast
          rw [Machine.exec_snoc] at hrun
          obtain ⟨u, hu, hstep⟩ := Option.bind_eq_some_iff.mp hrun
          obtain ⟨-, hbefore⟩ := reached_of_exec hbooked hstart
            (fun a ha => hplain a (List.mem_append_left _ ha)) hu
          obtain ⟨b', hwaits⟩ := Run.waiting_of_append front [.data r chunk] htold
          rw [hwaits] at hbefore
          rw [Run.firstTold_snoc, hwaits] at htold
          rw [threw_of_waiting hbefore hstep htold] at hthrew
          cases hthrew

theorem firstTold_append_of_threw (h : run₀.firstTold o r bs = .threw) (as : List PoolAction) :
    run₀.firstTold o r (bs ++ as) = .threw := by
  induction as using List.reverseRecOn with
  | nil => rw [List.append_nil, h]
  | append_singleton as a ih =>
      rw [← List.append_assoc, Run.firstTold_snoc, ih, Progress.andThen, ite_self]

/-- Timely events are timely up to any of them. -/
theorem timely_of_shorter (h : run₀.Timely o r as) (hbs : bs <+: as) : run₀.Timely o r bs := by
  obtain ⟨rest, rfl⟩ := hbs
  refine ⟨fun hthrew => h.survives (firstTold_append_of_threw hthrew rest), ?_⟩
  intro front back buffer heq hwaits
  obtain ⟨b, hstill⟩ := h.last front (back ++ rest) buffer
    (by rw [heq, List.append_assoc, List.cons_append]) hwaits
  exact Run.waiting_of_append bs rest hstill

/-- A request that a worker takes is settled with its first cause, and with nothing else ever after,
exactly when its events are timely. -/
theorem first_cause_wins_iff {now : ℤ} {pre as : List PoolAction} {reading : Reading}
    {request : InferRequest} {s₀ s₁ s : WorkerPool} {run₀ : Run}
    (hpre : Machine.exec (poolStep o) (.new o now) pre = some s₀)
    (hinfer : poolStep o s₀ (.infer reading request) = some s₁)
    (hr : s₁.runs[s₀.runs.length]? = some run₀) (hplain : ∀ a ∈ pre ++ as, a.plain)
    (hexec : Machine.exec (poolStep o) s₁ as = some s) :
    FirstCauseWins o s₁ run₀ s₀.runs.length as ↔ run₀.Timely o s₀.runs.length as := by
  have hbooked₀ := booked_of_exec hpre fun a ha => hplain a (List.mem_append_left as ha)
  have hrequest : (PoolAction.infer reading request).plain := trivial
  have hbooked : s₁.Booked := hbooked₀.step hrequest hinfer
  have hkept : s₁.RunsKept := (runsKept_of_exec hpre).step hinfer
  have hfresh : run₀.Waits run₀ ∧ run₀.buffer = [] := by
    obtain ⟨run, hold, -⟩ | ⟨-, -, -, -, -, rfl⟩ := run_of_step hinfer hr
    · simp at hold
    · exact ⟨⟨rfl, rfl, rfl, rfl, rfl, rfl⟩, rfl⟩
  have hiff : ∀ bs t, bs <+: as → Machine.exec (poolStep o) s₁ bs = some t →
      (Attributed o run₀ s₀.runs.length bs t ↔ run₀.Timely o s₀.runs.length bs) :=
    fun bs t hbs ht => attributed_iff_timely hbooked hkept hr hfresh.1 hfresh.2
      (fun a ha => hplain a (List.mem_append_right pre (hbs.subset ha))) ht
  constructor
  · intro h
    have hwhole := List.prefix_refl as
    exact (hiff as s hwhole hexec).mp (h as s hwhole hexec)
  · intro h bs t hbs ht
    exact (hiff bs t hbs ht).mpr (timely_of_shorter h hbs)

/-- A streaming request. -/
def hello : InferRequest := ⟨Json.units "a", Json.units "hi", [], true⟩

/-- Its run on worker 0. -/
def helloRun : Run where
  workerId := 0
  requestId := Json.units "a"
  prompt := Json.units "hi"
  mfeId := []
  stream := true

/-- The worker's socket closes before it has answered. -/
theorem first_cause_wins_closed :
    ∃ s, poolStep twoWorkers (.new twoWorkers 0) (.infer ⟨100, fun _ => true⟩ hello) = some s ∧
      FirstCauseWins twoWorkers s helloRun 0 [.connect 0, .close 0, .cancel 0] := by
  have hopened : (poolStep twoWorkers (.new twoWorkers 0) (.infer ⟨100, fun _ => true⟩ hello)).map
      (fun s => (s.runs[0]?,
        (Machine.exec (poolStep twoWorkers) s [.connect 0, .close 0, .cancel 0]).isSome)) =
        some (some helloRun, true) := by
    decide
  obtain ⟨s, hs, hstate⟩ := Option.map_eq_some_iff.mp hopened
  rw [Prod.mk.injEq, Option.isSome_iff_exists] at hstate
  obtain ⟨hr, t, ht⟩ := hstate
  have htimely : helloRun.Timely twoWorkers 0 [.connect 0, .close 0, .cancel 0] := by
    refine ⟨by decide, ?_⟩
    intro front back buffer heq
    have hmem : PoolAction.connectTimeout 0 ∈ front ++ .connectTimeout 0 :: back := by simp
    rw [← heq] at hmem
    simp at hmem
  have hpre : Machine.exec (poolStep twoWorkers) (.new twoWorkers 0) [] =
      some (WorkerPool.new twoWorkers 0) := rfl
  exact ⟨s, hs, (first_cause_wins_iff hpre hs hr (by simp [PoolAction.plain]) ht).mpr htimely⟩

/-- The connect timer expires first, and the request fails with `worker_socket_error` all the
same: the error that the timer destroys the client with is wrapped once more. -/
theorem not_first_cause_wins :
    ¬ ∀ (o : Options) (now : ℤ) (pre as : List PoolAction) (reading : Reading)
      (request : InferRequest) (s₀ s₁ s : WorkerPool) (run₀ : Run),
      Machine.exec (poolStep o) (.new o now) pre = some s₀ →
      poolStep o s₀ (.infer reading request) = some s₁ →
      s₁.runs[s₀.runs.length]? = some run₀ → (∀ a ∈ pre ++ as, a.plain) →
      Machine.exec (poolStep o) s₁ as = some s → FirstCauseWins o s₁ run₀ s₀.runs.length as := by
  intro hall
  have hopened : (poolStep twoWorkers (.new twoWorkers 0) (.infer ⟨100, fun _ => true⟩ hello)).map
      (fun s => (s.runs[0]?, (Machine.exec (poolStep twoWorkers) s
        [.connectTimeout 0, .error 0 helloRun.connectTimeoutError.message]).map
          fun t => t.runs.map Run.outcome)) =
        some (some helloRun, some [some (.rejected
          (helloRun.socketError helloRun.connectTimeoutError.message))]) := by
    decide
  obtain ⟨s, hs, hstate⟩ := Option.map_eq_some_iff.mp hopened
  rw [Prod.mk.injEq] at hstate
  obtain ⟨hr, hend⟩ := hstate
  obtain ⟨t, ht, houtcomes⟩ := Option.map_eq_some_iff.mp hend
  have hwins := hall twoWorkers 0 [] _ _ hello _ s t helloRun rfl hs hr
    (by simp [PoolAction.plain]) ht
  have hout := congrArg (fun l => l[0]?) houtcomes
  rw [List.getElem?_map] at hout
  obtain ⟨run, hrun, hout⟩ := Option.map_eq_some_iff.mp hout
  have hcause := (hwins _ t (List.prefix_refl _) ht).outcome run _ hrun hout
  exact absurd hcause (by decide)

end Main

end WorkerPool

end ServeInfer.ApiServer
