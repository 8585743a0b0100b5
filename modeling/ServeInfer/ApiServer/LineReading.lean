import ServeInfer.ApiServer.CrashOrder
import ServeInfer.Lib.Lines
import ServeInfer.Lib.Utf8Chunks

/-!
# Reading lines from a socket

A run's data events one after the other. What they do to the run is what its lines
do, wherever the chunks cut them, as long as the text of the chunks is the same.
-/

namespace ServeInfer.ApiServer

open Lines

/-- On no run's socket does the handler throw on the line. -/
structure Readable (o : Options) (line : JsString) : Prop where
  ne_null : Json.parse line ≠ some .null
  text : ∀ run msg, Json.parse line = some msg → WorkerPool.textless o run msg = false

namespace Run

variable (o : Options)

/-- The handler's way through some lines; the lines behind the one that stopped it come second. -/
def readLines (run : Run) : List JsString → Run × Option (List JsString)
  | [] => (run, none)
  | line :: lines =>
      match run.onLine o (Json.trim line) with
      | (run, true) => readLines run lines
      | (run, false) => (run, some lines)

/-- The data events of a client; a destroyed one has none. -/
def receive (run : Run) : List (List UInt8) → Run
  | [] => run
  | chunk :: chunks => if run.canData then (run.onData o chunk).receive chunks else run

variable {o} {run run' : Run} {line : JsString} {ls ls' more : List JsString} {rest tail w b : JsString}
  {chunk : List UInt8} {chunks : List (List UInt8)}

section Buffer

/-- The run with another buffer. -/
def setBuffer (run : Run) (b : JsString) : Run := { run with buffer := b }

@[simp] theorem setBuffer_setBuffer (run : Run) (b b' : JsString) :
    (run.setBuffer b).setBuffer b' = run.setBuffer b' := rfl

theorem setBuffer_self (run : Run) : run.setBuffer run.buffer = run := rfl

theorem finish_setBuffer (run : Run) (b : JsString) :
    (run.setBuffer b).finish = run.finish.setBuffer b := rfl

theorem settle_setBuffer (run : Run) (b : JsString) (outcome : Outcome) :
    (run.setBuffer b).settle outcome = (run.settle outcome).setBuffer b := rfl

theorem destroy_setBuffer (run : Run) (b : JsString) (err : Option WorkerPoolError) :
    (run.setBuffer b).destroy err = (run.destroy err).setBuffer b := by
  cases hdestroyed : run.destroyed <;> simp [destroy, setBuffer, hdestroyed]

theorem finalizeError_setBuffer (run : Run) (b : JsString) (err : WorkerPoolError) :
    (run.setBuffer b).finalizeError err = (run.finalizeError err).setBuffer b := by
  cases hdone : run.done <;> simp [finalizeError, setBuffer, hdone, finish, settle]

theorem failRun_setBuffer (run : Run) (b : JsString) (err : WorkerPoolError) :
    (run.setBuffer b).failRun err = (run.failRun err).setBuffer b := by
  have hstream : (run.setBuffer b).stream = run.stream := rfl
  have hdone : (run.setBuffer b).done = run.done := rfl
  rw [failRun, failRun, failInFlight, failInFlight, hstream, hdone, finalizeError_setBuffer,
    finish_setBuffer, destroy_setBuffer, settle_setBuffer]
  split_ifs <;> rfl

theorem onResult_setBuffer (run : Run) (b : JsString) (msg : Json) :
    (run.setBuffer b).onResult o msg = (run.onResult o msg).setBuffer b := by
  cases hdone : run.done <;> simp [onResult, setBuffer, hdone, finish, settle]

theorem onFrame_setBuffer (run : Run) (b : JsString) (msg : Json) :
    (run.setBuffer b).onFrame o msg =
      ((run.onFrame o msg).1.setBuffer b, (run.onFrame o msg).2) := by
  have hstream : (run.setBuffer b).stream = run.stream := rfl
  have herror : (run.setBuffer b).errorFrame o msg = run.errorFrame o msg := rfl
  rw [onFrame, onFrame, hstream, herror, failRun_setBuffer, onResult_setBuffer]
  split_ifs <;> rfl

/-- A line does not look at the buffer. -/
theorem onLine_setBuffer (run : Run) (b line : JsString) :
    (run.setBuffer b).onLine o line =
      ((run.onLine o line).1.setBuffer b, (run.onLine o line).2) := by
  rw [onLine, onLine]
  split
  · rfl
  · cases Json.parse line with
    | none => exact congrArg (·, false) (failRun_setBuffer run b run.badJson)
    | some msg =>
        have htext : WorkerPool.textless o (run.setBuffer b) msg = WorkerPool.textless o run msg :=
          rfl
        cases msg with
        | null => rfl
        | _ =>
            dsimp only
            rw [htext]
            split
            · rfl
            · exact onFrame_setBuffer run b _

theorem readLines_setBuffer (run : Run) (b : JsString) (ls : List JsString) :
    (run.setBuffer b).readLines o ls =
      ((run.readLines o ls).1.setBuffer b, (run.readLines o ls).2) := by
  induction ls generalizing run with
  | nil => rfl
  | cons line ls ih =>
      rw [readLines, readLines, onLine_setBuffer]
      obtain ⟨run', goesOn⟩ := run.onLine o (Json.trim line)
      cases goesOn with
      | true => exact ih run'
      | false => rfl

end Buffer

section Drain

theorem readLines_append (run : Run) (ls ls' : List JsString) :
    run.readLines o (ls ++ ls') =
      match run.readLines o ls with
      | (run', none) => run'.readLines o ls'
      | (run', some more) => (run', some (more ++ ls')) := by
  induction ls generalizing run with
  | nil => rfl
  | cons line ls ih =>
      rw [List.cons_append, readLines, readLines]
      obtain ⟨run', goesOn⟩ := run.onLine o (Json.trim line)
      cases goesOn with
      | true => exact ih run'
      | false => rfl

/-- The lines behind the one that stops the handler are the last ones. -/
theorem exists_front (h : (run.readLines o ls).2 = some more) : ∃ front, ls = front ++ more := by
  induction ls generalizing run with
  | nil => exact absurd h (by simp [readLines])
  | cons line ls ih =>
      rw [readLines] at h
      split at h
      · obtain ⟨front, rfl⟩ := ih h
        exact ⟨line :: front, rfl⟩
      · obtain rfl := Option.some.inj h
        exact ⟨[line], rfl⟩

/-- What is left in the buffer of the lines and of the one that is not finished. -/
def leftover (rest : JsString) : Option (List JsString) → JsString
  | none => rest
  | some more => joined 0x0A more ++ rest

theorem drain_lines (run : Run) (ls : List JsString) (rest : JsString) :
    run.drain o (ls ++ [rest]) =
      ((run.readLines o ls).1, leftover rest (run.readLines o ls).2) := by
  induction ls generalizing run with
  | nil => rfl
  | cons line ls ih =>
      obtain ⟨next, more, heq⟩ : ∃ next more, ls ++ [rest] = next :: more :=
        List.exists_cons_of_ne_nil (by simp)
      rw [List.cons_append, heq, drain, ← heq, readLines]
      · obtain ⟨run', goesOn⟩ := run.onLine o (Json.trim line)
        cases goesOn with
        | true => exact ih run'
        | false => exact congrArg (run', ·) (intercalate_eq 0x0A ls rest)
      · exact List.cons_ne_nil next more

/-- A chunk: the lines that it completes, and how the text goes on. -/
theorem onData_lines (hls : ∀ l ∈ ls, (0x0A : Utf8.CodeUnit) ∉ l)
    (htail : (0x0A : Utf8.CodeUnit) ∉ tail)
    (h : run.buffer ++ Utf8.decode chunk ++ w = joined 0x0A ls ++ tail) :
    ∃ front back rest, ls = front ++ back ∧ (0x0A : Utf8.CodeUnit) ∉ rest ∧
      rest ++ w = joined 0x0A back ++ tail ∧
      run.onData o chunk =
        (run.readLines o front).1.setBuffer (leftover rest (run.readLines o front).2) := by
  obtain ⟨front, back, rest, rfl, hfront, hrest, hback⟩ := exists_split hls htail h
  refine ⟨front, back, rest, rfl, hrest, hback, ?_⟩
  have hsplit := splitOn_joined (fun l hl => hls l (List.mem_append_left back hl)) hrest
  rw [onData, hfront, hsplit, drain_lines]
  rfl

end Drain

section Stop

/-- The handler is through with the run: it is done, and a streaming one has been destroyed. -/
def Through (run : Run) : Prop := run.done = true ∧ (run.stream = true → run.destroyed = true)

/-- The line is a result. -/
def IsResult (line : JsString) : Prop :=
  ∃ msg, Json.parse (Json.trim line) = some msg ∧ WorkerPool.isType msg "result" = true

/-- A line with which the handler goes on leaves the run as it is or hands on a token. -/
theorem eq_of_onLine_true (h : run.onLine o line = (run', true)) :
    run' = run ∨ ∃ token, run' = run.onToken token := by
  rw [onLine] at h
  split at h
  · exact .inl (Prod.mk.inj h).1.symm
  · cases hparse : Json.parse line with
    | none =>
        rw [hparse] at h
        exact absurd (Prod.mk.inj h).2 (by decide)
    | some msg =>
        have hframe : run.onFrame o msg = (run', true) →
            run' = run ∨ ∃ token, run' = run.onToken token := by
          intro hf
          rw [onFrame] at hf
          split_ifs at hf
          · exact .inr ⟨_, (Prod.mk.inj hf).1.symm⟩
          · exact absurd (Prod.mk.inj hf).2 (by decide)
          · exact absurd (Prod.mk.inj hf).2 (by decide)
          · exact .inl (Prod.mk.inj hf).1.symm
        rw [hparse] at h
        cases msg with
        | null => exact absurd (Prod.mk.inj h).2 (by decide)
        | _ =>
            dsimp only at h
            split at h
            · exact absurd (Prod.mk.inj h).2 (by decide)
            · exact hframe h

theorem destroyed_destroy (run : Run) (err : Option WorkerPoolError) :
    (run.destroy err).destroyed = true := by
  cases hdestroyed : run.destroyed <;> simp [destroy, hdestroyed]

theorem failRun_of_open (hdone : run.done = false) (err : WorkerPoolError) :
    run.failRun err =
      (if run.stream then run.finish.destroy none else run.finish).settle (.rejected err) := by
  cases hstream : run.stream <;> simp [failRun, failInFlight, finalizeError, hstream, hdone]

theorem through_failRun (hdone : run.done = false) (err : WorkerPoolError) :
    (run.failRun err).Through := by
  rw [failRun_of_open hdone]
  cases hstream : run.stream with
  | false => exact ⟨rfl, fun h => absurd (hstream.symm.trans h) (by decide)⟩
  | true => exact ⟨done_destroy run.finish none, fun _ => destroyed_destroy run.finish none⟩

theorem onResult_of_open (hdone : run.done = false) (msg : Json) :
    run.onResult o msg = { run.finish with ended := run.ended || !run.destroyed }.settle
      (.resolved (WorkerPool.frameResult o msg)) :=
  if_neg (by simp [hdone])

theorem stream_onLine (run : Run) (line : JsString) :
    (run.onLine o line).1.stream = run.stream := by
  have hdestroy : ∀ run : Run, (run.destroy none).stream = run.stream := by
    intro run
    rw [destroy]
    split <;> rfl
  have hfail : ∀ err, (run.failRun err).stream = run.stream := by
    intro err
    cases hdone : run.done with
    | false =>
        rw [failRun_of_open hdone]
        split
        · exact hdestroy run.finish
        · rfl
    | true =>
        cases hstream : run.stream <;>
          simp [failRun, failInFlight, finalizeError, hstream, hdone]
  have hframe : ∀ msg, (run.onFrame o msg).1.stream = run.stream := by
    intro msg
    rw [onFrame]
    split_ifs
    · rfl
    · exact hfail _
    · rw [onResult]
      split <;> rfl
    · rfl
  rw [onLine]
  split
  · rfl
  · cases Json.parse line with
    | none => exact hfail _
    | some msg =>
        cases msg with
        | null => rfl
        | _ =>
            dsimp only
            split
            · rfl
            · exact hframe _

theorem stream_readLines (run : Run) (ls : List JsString) :
    (run.readLines o ls).1.stream = run.stream := by
  induction ls generalizing run with
  | nil => rfl
  | cons line ls ih =>
      have hline := stream_onLine (o := o) run (Json.trim line)
      rw [readLines]
      split
      · rename_i run' heq
        rw [heq] at hline
        rw [ih, hline]
      · rename_i run' heq
        rw [heq] at hline
        exact hline

/-- A line that stops the handler ends the run, and only a result leaves the client of a streaming
one open. -/
theorem through_of_onLine_false (hdone : run.done = false)
    (hread : Readable o line) (h : run.onLine o line = (run', false)) :
    run'.done = true ∧ (run'.Through ∨
      ∃ msg, Json.parse line = some msg ∧ WorkerPool.isType msg "result" = true) := by
  have hfail : ∀ err, run' = run.failRun err → run'.done = true ∧ run'.Through := by
    rintro err rfl
    have hthrough := through_failRun hdone err
    exact ⟨hthrough.1, hthrough⟩
  rw [onLine] at h
  split at h
  · exact absurd (Prod.mk.inj h).2 (by decide)
  · cases hparse : Json.parse line with
    | none =>
        rw [hparse] at h
        obtain ⟨hd, hthrough⟩ := hfail _ (Prod.mk.inj h).1.symm
        exact ⟨hd, .inl hthrough⟩
    | some msg =>
        have hframe : run.onFrame o msg = (run', false) → run'.done = true ∧ (run'.Through ∨
            ∃ msg', some msg = some msg' ∧ WorkerPool.isType msg' "result" = true) := by
          intro hf
          rw [onFrame] at hf
          split_ifs at hf with htoken herror hresult
          · exact absurd (Prod.mk.inj hf).2 (by decide)
          · obtain ⟨hd, hthrough⟩ := hfail _ (Prod.mk.inj hf).1.symm
            exact ⟨hd, .inl hthrough⟩
          · rw [onResult_of_open hdone] at hf
            refine ⟨?_, .inr ⟨msg, rfl, hresult⟩⟩
            rw [← (Prod.mk.inj hf).1]
            rfl
          · exact absurd (Prod.mk.inj hf).2 (by decide)
        have htext := hread.text run msg hparse
        rw [hparse] at h
        cases msg with
        | null => exact absurd hparse hread.ne_null
        | _ =>
            dsimp only at h
            rw [if_neg (by rw [htext]; decide)] at h
            exact hframe h

/-- A run that the handler is through with stays as it is. -/
theorem Through.onLine (hrun : run.Through) (hstream : run.stream = false) (line : JsString) :
    (run.onLine o line).1 = run := by
  have hdone : ¬ (!run.done) = true := by simp [hrun.1]
  have hfail : ∀ err, run.failRun err = run := fun err => by
    simp [failRun, finalizeError, hstream, hrun.1]
  have hframe : ∀ msg, (run.onFrame o msg).1 = run := by
    intro msg
    rw [onFrame, hstream, Bool.false_and, if_neg (by decide), hfail]
    split_ifs
    · rfl
    · simp [onResult, hrun.1]
    · rfl
  rw [Run.onLine]
  split
  · rfl
  · cases Json.parse line with
    | none => exact hfail _
    | some msg =>
        cases msg with
        | null => rfl
        | _ =>
            dsimp only
            split
            · rfl
            · exact hframe _

theorem Through.readLines (hrun : run.Through) (hstream : run.stream = false) (ls : List JsString) :
    (run.readLines o ls).1 = run := by
  induction ls with
  | nil => rfl
  | cons line ls ih =>
      have hline := hrun.onLine (o := o) hstream (Json.trim line)
      rw [Run.readLines]
      split
      · rename_i run' heq
        rw [heq] at hline
        exact hline ▸ ih
      · rename_i run' heq
        rw [heq] at hline
        exact hline

theorem Through.setBuffer (hrun : run.Through) (b : JsString) : (run.setBuffer b).Through := hrun

/-- Data changes nothing of such a run but its buffer. -/
theorem Through.receive (hrun : run.Through) (chunks : List (List UInt8)) :
    ∃ b, run.receive o chunks = run.setBuffer b := by
  induction chunks generalizing run with
  | nil => exact ⟨run.buffer, rfl⟩
  | cons chunk chunks ih =>
      rw [Run.receive]
      split
      · rename_i hcan
        have hstream : run.stream = false := by
          cases hs : run.stream with
          | false => rfl
          | true => simp [canData, hrun.2 hs] at hcan
        obtain ⟨ls, rest, hsplit⟩ : ∃ ls rest,
            (run.buffer ++ Utf8.decode chunk).splitOn 0x0A = ls ++ [rest] :=
          ⟨_, _, (List.dropLast_append_getLast (List.splitOn_ne_nil _ _)).symm⟩
        have hdata : run.onData o chunk =
            run.setBuffer (leftover rest (run.readLines o ls).2) := by
          rw [onData, hsplit, drain_lines, hrun.readLines hstream]
          rfl
        rw [hdata]
        obtain ⟨b, hb⟩ := ih (hrun.setBuffer _)
        exact ⟨b, hb⟩
      · exact ⟨run.buffer, rfl⟩

end Stop

section Receive

/-- A run that is not done, on a client that data comes from. -/
def Open (run : Run) : Prop := run.done = false ∧ run.canData = true

theorem Open.setBuffer (hrun : run.Open) (b : JsString) : (run.setBuffer b).Open := hrun

theorem Open.readLines (hrun : run.Open) (h : run.readLines o ls = (run', none)) : run'.Open := by
  induction ls generalizing run with
  | nil => exact (Prod.mk.inj h).1 ▸ hrun
  | cons line ls ih =>
      rw [Run.readLines] at h
      split at h
      · rename_i run'' hline
        obtain rfl | ⟨token, rfl⟩ := eq_of_onLine_true hline
        · exact ih hrun h
        · have htoken : (run.onToken token).Open := hrun
          exact ih htoken h
      · exact absurd (Prod.mk.inj h).2 (by simp)

/-- Where the lines stop the handler, they end the run: the handler is through with it, or the
line that did it is a result. -/
theorem exists_stop (hdone : run.done = false)
    (hreadable : ∀ l ∈ ls, Readable o (Json.trim l))
    (h : run.readLines o ls = (run', some more)) :
    run'.done = true ∧ (run'.Through ∨ ∃ front line, ls = front ++ line :: more ∧ IsResult line) := by
  induction ls generalizing run with
  | nil => exact absurd (Prod.mk.inj h).2 (by simp)
  | cons line ls ih =>
      rw [readLines] at h
      split at h
      · rename_i run'' hline
        have hdone' : run''.done = false := by
          obtain rfl | ⟨token, rfl⟩ := eq_of_onLine_true hline <;> exact hdone
        obtain ⟨hd, hthrough | ⟨front, line', rfl, hresult⟩⟩ :=
          ih hdone' (fun l hl => hreadable l (List.mem_cons_of_mem line hl)) h
        · exact ⟨hd, .inl hthrough⟩
        · exact ⟨hd, .inr ⟨line :: front, line', rfl, hresult⟩⟩
      · rename_i run'' hline
        obtain ⟨rfl, hmore⟩ := Prod.mk.inj h
        obtain rfl := Option.some.inj hmore
        obtain ⟨hd, hthrough | hresult⟩ :=
          through_of_onLine_false hdone (hreadable line List.mem_cons_self) hline
        · exact ⟨hd, .inl hthrough⟩
        · exact ⟨hd, .inr ⟨[], line, rfl, hresult⟩⟩

/-- Chunks without text change nothing of a run with an empty buffer. -/
theorem receive_empty (hbuffer : run.buffer = []) (h : Utf8.decodeAll chunks = []) :
    run.receive o chunks = run := by
  induction chunks with
  | nil => rfl
  | cons chunk chunks ih =>
      obtain ⟨hchunk, hrest⟩ := List.append_eq_nil_iff.mp (Utf8.decodeAll_cons chunk chunks ▸ h)
      have hdata : run.onData o chunk = run := by
        rw [onData, hbuffer, hchunk, List.nil_append, List.splitOn_nil]
        show run.setBuffer [] = run
        rw [← hbuffer, setBuffer_self]
      rw [receive, hdata, ih hrest]
      exact ite_self _

/-- Data does to a run what its lines do, wherever the chunks cut them. -/
theorem receive_lines (hrun : run.Open) (hbuffer : (0x0A : Utf8.CodeUnit) ∉ run.buffer)
    (hls : ∀ l ∈ ls, (0x0A : Utf8.CodeUnit) ∉ l) (htail : (0x0A : Utf8.CodeUnit) ∉ tail)
    (h : run.buffer ++ Utf8.decodeAll chunks = joined 0x0A ls ++ tail)
    (hreadable : ∀ l ∈ ls, Readable o (Json.trim l))
    (hresult : ∀ front line back, ls = front ++ line :: back → IsResult line →
      run.stream = true → back = [] ∧ tail = []) :
    ∃ b, run.receive o chunks = (run.readLines o ls).1.setBuffer b := by
  induction chunks generalizing run ls with
  | nil =>
      cases ls with
      | nil => exact ⟨run.buffer, rfl⟩
      | cons l ls =>
          have hmem : (0x0A : Utf8.CodeUnit) ∈ run.buffer ++ Utf8.decodeAll [] := by
            rw [h, joined_cons]
            simp
          rw [Utf8.decodeAll_nil, List.append_nil] at hmem
          exact absurd hmem hbuffer
  | cons chunk chunks ih =>
      rw [Utf8.decodeAll_cons, ← List.append_assoc] at h
      obtain ⟨front, back, rest, rfl, hrest, hback, hdata⟩ := onData_lines hls htail h
      have hreadFront : ∀ l ∈ front, Readable o (Json.trim l) :=
        fun l hl => hreadable l (List.mem_append_left back hl)
      rw [receive, if_pos hrun.2, hdata, readLines_append]
      cases hread : run.readLines o front with
      | mk run₁ stopped =>
      cases stopped with
      | none =>
          have hopen := (hrun.readLines hread).setBuffer rest
          have hstream : run₁.stream = run.stream := by
            rw [← stream_readLines (o := o) run front, hread]
          obtain ⟨b, hb⟩ := ih hopen hrest (fun l hl => hls l (List.mem_append_right front hl))
            hback (fun l hl => hreadable l (List.mem_append_right front hl)) (by
              intro front' line back' heq hres hs
              apply hresult (front ++ front') line back' (by rw [heq, List.append_assoc]) hres
              exact hstream ▸ hs)
          refine ⟨b, ?_⟩
          rw [readLines_setBuffer] at hb
          exact hb
      | some more =>
          obtain ⟨hdone, hstop⟩ := exists_stop hrun.1 hreadFront hread
          have hstream : run₁.stream = run.stream := by
            rw [← stream_readLines (o := o) run front, hread]
          have hthrough : run₁.Through → ∃ b,
              (run₁.setBuffer (leftover rest (some more))).receive o chunks = run₁.setBuffer b :=
            fun hrun₁ => (hrun₁.setBuffer _).receive chunks
          obtain hrun₁ | ⟨front', line, rfl, hres⟩ := hstop
          · exact hthrough hrun₁
          · cases hs : run.stream with
            | false => exact hthrough ⟨hdone, fun h => absurd (hstream ▸ h) (by simp [hs])⟩
            | true =>
                obtain ⟨hempty, rfl⟩ := hresult front' line (more ++ back) (by simp) hres hs
                obtain ⟨rfl, rfl⟩ := List.append_eq_nil_iff.mp hempty
                obtain ⟨rfl, hnothing⟩ := List.append_eq_nil_iff.mp hback
                exact ⟨[], receive_empty rfl hnothing⟩

end Receive

end Run

namespace WorkerPool

variable (o : Options)

/-- The data events of a run's client, one after the other. -/
def receive (s : WorkerPool) (r : ℕ) : List (List UInt8) → WorkerPool
  | [] => s
  | chunk :: chunks => receive ((poolStep o s (.data r chunk)).getD s) r chunks

variable {o} {s : WorkerPool} {r : ℕ} {run : Run} {ls : List JsString} {tail : JsString}
  {line : JsString} {chunk : List UInt8} {chunks : List (List UInt8)}

theorem threw_onLine (hr : s.runs[r]? = some run) (hread : Readable o line) :
    (s.onLine o r line).1.threw = s.threw := by
  have hframe : ∀ msg, (s.onFrame o r run msg).1.threw = s.threw := by
    intro msg
    rw [onFrame]
    split_ifs
    · rfl
    · exact threw_failRun s r _
    · rw [onResult, hr]
      dsimp only
      split
      · rfl
      · exact (threw_setWorker _ _ _).trans (threw_finish s r)
    · rfl
  rw [onLine_eq hr]
  split
  · rfl
  · cases hparse : Json.parse line with
    | none => exact threw_failRun s r _
    | some msg =>
        cases msg with
        | null => exact absurd hparse hread.ne_null
        | _ =>
            have htext := hread.text run _ hparse
            dsimp only
            rw [if_neg (by rw [htext]; decide)]
            exact hframe _

theorem threw_drain (hr : s.runs[r]? = some run)
    (hreadable : ∀ l ∈ ls, Readable o (Json.trim l)) (rest : JsString) :
    (drain o r (ls ++ [rest]) s).1.threw = s.threw := by
  induction ls generalizing s run with
  | nil => rfl
  | cons line ls ih =>
      obtain ⟨next, more, heq⟩ : ∃ next more, ls ++ [rest] = next :: more :=
        List.exists_cons_of_ne_nil (by simp)
      have hline := threw_onLine (o := o) hr (hreadable line List.mem_cons_self)
      obtain ⟨hruns, -⟩ := runs_onLine (o := o) hr (Json.trim line)
      have hr' : (s.onLine o r (Json.trim line)).1.runs[r]? =
          some (run.onLine o (Json.trim line)).1 := by
        rw [hruns, List.getElem?_modify_eq, hr]
        rfl
      rw [List.cons_append, heq, drain, ← heq]
      · cases hresult : s.onLine o r (Json.trim line) with
        | mk s' goesOn =>
        rw [hresult] at hline hr'
        cases goesOn with
        | true => exact (ih hr' fun l hl => hreadable l (List.mem_cons_of_mem line hl)).trans hline
        | false => exact hline
      · exact List.cons_ne_nil next more

theorem threw_onData (hr : s.runs[r]? = some run) (hls : ∀ l ∈ ls, (0x0A : Utf8.CodeUnit) ∉ l)
    (htail : (0x0A : Utf8.CodeUnit) ∉ tail)
    (h : run.buffer ++ Utf8.decode chunk = joined 0x0A ls ++ tail)
    (hreadable : ∀ l ∈ ls, Readable o (Json.trim l)) :
    (s.onData o r chunk).threw = s.threw := by
  rw [onData, hr]
  dsimp only
  rw [h, splitOn_joined hls htail, threw_setRun]
  exact threw_drain hr hreadable tail

theorem receive_of_cannot (hr : s.runs[r]? = some run) (hcan : run.canData = false)
    (chunks : List (List UInt8)) : s.receive o r chunks = s := by
  induction chunks with
  | nil => rfl
  | cons chunk chunks ih =>
      have hstep : poolStep o s (.data r chunk) = none := by
        simp [poolStep, guardRun, hr, hcan]
      rw [receive, hstep]
      exact ih

/-- As long as the handler does not throw on a line, data does to its run what it does to the run by
itself. -/
theorem runs_receive (hr : s.runs[r]? = some run) (hlive : s.threw = false)
    (hls : ∀ l ∈ ls, (0x0A : Utf8.CodeUnit) ∉ l) (htail : (0x0A : Utf8.CodeUnit) ∉ tail)
    (h : run.buffer ++ Utf8.decodeAll chunks = joined 0x0A ls ++ tail)
    (hreadable : ∀ l ∈ ls, Readable o (Json.trim l)) :
    (s.receive o r chunks).runs[r]? = some (run.receive o chunks) ∧
      (s.receive o r chunks).threw = false := by
  induction chunks generalizing s run ls with
  | nil => exact ⟨hr, hlive⟩
  | cons chunk chunks ih =>
      rw [Run.receive]
      split
      · rename_i hcan
        have hstep : poolStep o s (.data r chunk) = some (s.onData o r chunk) := by
          simp [poolStep, guardRun, hr, hcan, hlive]
        have hr' : (s.onData o r chunk).runs[r]? = some (run.onData o chunk) := by
          rw [runs_onData, List.getElem?_modify_eq, hr]
          rfl
        rw [Utf8.decodeAll_cons, ← List.append_assoc] at h
        obtain ⟨front, back, rest, rfl, hfront, hrest, hback⟩ := exists_split hls htail h
        have hclean : ∀ l ∈ front, (0x0A : Utf8.CodeUnit) ∉ l :=
          fun l hl => hls l (List.mem_append_left back hl)
        have hlive' : (s.onData o r chunk).threw = false := by
          rw [threw_onData hr hclean hrest hfront fun l hl =>
            hreadable l (List.mem_append_left back hl)]
          exact hlive
        have hbuffer : (run.onData o chunk).buffer =
            Run.leftover rest (run.readLines o front).2 := by
          rw [Run.onData, hfront, splitOn_joined hclean hrest, Run.drain_lines]
        rw [receive, hstep]
        cases hread : (run.readLines o front).2 with
        | none =>
            apply ih hr' hlive' fun l hl => hls l (List.mem_append_right front hl)
            · rw [hbuffer, hread]
              exact hback
            · exact fun l hl => hreadable l (List.mem_append_right front hl)
        | some more =>
            obtain ⟨seen, rfl⟩ := Run.exists_front hread
            have hmore : ∀ l ∈ more ++ back, (0x0A : Utf8.CodeUnit) ∉ l := by
              intro l hl
              apply hls
              simp only [List.mem_append] at hl ⊢
              tauto
            apply ih hr' hlive' hmore
            · rw [hbuffer, hread, joined_append, Run.leftover, List.append_assoc, hback,
                List.append_assoc]
            · intro l hl
              apply hreadable
              simp only [List.mem_append] at hl ⊢
              tauto
      · rename_i hcan
        rw [receive_of_cannot hr (by simpa using hcan)]
        exact ⟨hr, hlive⟩

end WorkerPool

end ServeInfer.ApiServer
