import ServeInfer.ApiServer.LineReading
import ServeInfer.InferenceWorker.FrameText

/-!
# What a run makes of a worker's reply

The frames of a reply in the handlers of a run: a frame that reads is a token, a
result or an error, and one that does not is answered with `worker_bad_json`.
-/

namespace ServeInfer.ApiServer

open InferenceWorker

namespace Run

/-- The error of a run whose worker sends an error frame. -/
def workerError (run : Run) (message : JsString) : WorkerPoolError where
  message := if message = [] then Json.units "worker_error" else message
  code := .workerError
  statusCode := 502
  workerId := some run.workerId

/-- What a result frame's texts resolve to. -/
def answered (text device : JsString) (degradedReason : Option JsString) : InferenceResult where
  text := text
  device := device
  degraded := degradedReason.isSome
  degradedReason := degradedReason.bind fun reason => if reason = [] then none else some reason

/-- What a run hands on of a reply, and how it is settled by it. A frame comes with whether it
cannot be read. -/
def replied (run : Run) : List (Bool × Frame JsString) → List JsString × Option Outcome
  | [] => ([], none)
  | (true, _) :: _ => ([], some (.rejected run.badJson))
  | (false, .token _ piece) :: frames =>
      let rest := run.replied frames
      (if run.stream then piece :: rest.1 else rest.1, rest.2)
  | (false, .result _ text device degradedReason) :: _ =>
      ([], some (.resolved (answered text device degradedReason)))
  | (false, .error _ message) :: _ => ([], some (.rejected (run.workerError message)))

variable {o : Options} {run : Run} {f : Frame Bytes} {g : Frame JsString}

section Frames

/-- A text that is not empty is kept, and an empty one is none. -/
theorem truthy_text (s : JsString) :
    (WorkerPool.truthy? o (some (.str s))).map (Json.toText o.numberText) =
      if s = [] then none else some s := by
  cases s <;> rfl

theorem onFrame_token (run : Run) (requestId piece : JsString) :
    run.onFrame o (Frame.object (.token requestId piece)) =
      (if run.stream then run.onToken piece else run, true) := by
  have htoken : WorkerPool.isType (Frame.object (.token requestId piece)) "token" = true := rfl
  have herror : WorkerPool.isType (Frame.object (.token requestId piece)) "error" = false := rfl
  have hresult : WorkerPool.isType (Frame.object (.token requestId piece)) "result" = false := rfl
  have hpiece : WorkerPool.coalesce o ((Frame.object (.token requestId piece)).get? "token") "" =
      piece := rfl
  cases hstream : run.stream <;> simp [onFrame, htoken, herror, hresult, hpiece, hstream]

theorem errorFrame_error (run : Run) (requestId message : JsString) :
    run.errorFrame o (Frame.object (.error requestId message)) = run.workerError message := by
  have hget : (Frame.object (.error requestId message)).get? "error" = some (.str message) := rfl
  rw [errorFrame, hget, truthy_text, workerError]
  split_ifs <;> rfl

theorem onFrame_error (run : Run) (requestId message : JsString) :
    run.onFrame o (Frame.object (.error requestId message)) =
      (run.failRun (run.workerError message), false) := by
  have htoken : WorkerPool.isType (Frame.object (.error requestId message)) "token" = false := rfl
  have herror : WorkerPool.isType (Frame.object (.error requestId message)) "error" = true := rfl
  simp [onFrame, htoken, herror, errorFrame_error]

theorem frameResult_result (requestId text device : JsString) (degradedReason : Option JsString) :
    WorkerPool.frameResult o (Frame.object (.result requestId text device degradedReason)) =
      answered text device degradedReason := by
  cases degradedReason with
  | none => rfl
  | some reason =>
      have hget : (Frame.object (.result requestId text device (some reason))).get?
          "degradedReason" = some (.str reason) := rfl
      have hdegraded : (WorkerPool.truthy? o ((Frame.object (.result requestId text device
          (some reason))).get? "degraded")).isSome = true := rfl
      have htext : WorkerPool.coalesce o ((Frame.object (.result requestId text device
          (some reason))).get? "text") "" = text := rfl
      have hdevice : WorkerPool.coalesce o ((Frame.object (.result requestId text device
          (some reason))).get? "device") "cpu" = device := rfl
      rw [WorkerPool.frameResult, hget, hdegraded, htext, hdevice, truthy_text]
      rfl

theorem onFrame_result (run : Run) (requestId text device : JsString)
    (degradedReason : Option JsString) :
    run.onFrame o (Frame.object (.result requestId text device degradedReason)) =
      (run.onResult o (Frame.object (.result requestId text device degradedReason)), false) := by
  have htype : ∀ type, WorkerPool.isType
      (Frame.object (.result requestId text device degradedReason)) type =
        decide (Json.units "result" = Json.units type) := by
    intro type
    cases degradedReason <;> rfl
  have htoken : decide (Json.units "result" = Json.units "token") = false := by decide
  have herror : decide (Json.units "result" = Json.units "error") = false := by decide
  simp [onFrame, htype, htoken, herror]

/-- Nothing without a text is found in an object that has nothing without one. -/
theorem textless_of_members (run : Run) {members : List (JsString × Json)}
    (h : ∀ m ∈ members, m.2.hasText = true) :
    WorkerPool.textless o run (.obj members) = false := by
  have hget : ∀ key v, (Json.obj members).get? key = some v → v.hasText = true := by
    intro key v hv
    obtain ⟨m, hm, rfl⟩ := Option.map_eq_some_iff.mp hv
    exact h m (List.mem_reverse.mp (List.mem_of_find?_eq_some hm))
  have hplain : ∀ key, (((Json.obj members).get? key).any fun v => !v.hasText) = false := by
    intro key
    cases hv : (Json.obj members).get? key with
    | none => rfl
    | some v => simp [hget key v hv]
  have htruthy : ∀ key, ((WorkerPool.truthy? o ((Json.obj members).get? key)).any
      fun v => !v.hasText) = false := by
    intro key
    cases hv : WorkerPool.truthy? o ((Json.obj members).get? key) with
    | none => rfl
    | some v => simp [hget key v (Option.filter_eq_some_iff.mp hv).1]
  simp only [WorkerPool.textless, hplain, htruthy, Bool.or_false, Bool.and_false, ite_self]

/-- The members of a frame are texts and truth values. -/
theorem textless_object (run : Run) (g : Frame JsString) :
    WorkerPool.textless o run g.object = false := by
  apply textless_of_members
  cases g with
  | token requestId piece => simp [Frame.members, Json.hasText]
  | result requestId text device degradedReason =>
      cases degradedReason <;> simp [Frame.members, Json.hasText]
  | error requestId message => simp [Frame.members, Json.hasText]

/-- A frame's line by what it reads as. -/
theorem onLine_frame (run : Run) (hfg : f.Alike Utf8.Mirrors g) :
    run.onLine o (Json.trim g.line) =
      if f.rough then (run.failRun run.badJson, false) else run.onFrame o g.object := by
  have hne : g.line.isEmpty = false := rfl
  have htext := run.textless_object (o := o) g
  rw [onLine, Frame.trim_line, hne, hfg.parse_line]
  cases f.rough with
  | true => rfl
  | false =>
      show (if WorkerPool.textless o run g.object then (run, false) else run.onFrame o g.object) = _
      rw [if_neg (by rw [htext]; decide)]
      rfl

end Frames

section Replies

variable {fs : List (Frame Bytes)} {gs : List (Frame JsString)}

/-- The frames of a reply as a run reads them: each with whether it cannot be read. -/
def marked (fs : List (Frame Bytes)) (gs : List (Frame JsString)) : List (Bool × Frame JsString) :=
  (fs.map Frame.rough).zip gs

theorem outcome_failRun (hdone : run.done = false) (hout : run.outcome = none)
    (err : WorkerPoolError) :
    (run.failRun err).tokens = run.tokens ∧ (run.failRun err).outcome = some (.rejected err) := by
  have hopen : ∀ run' : Run, run'.tokens = run.tokens → run'.outcome = none →
      (run'.settle (.rejected err)).tokens = run.tokens ∧
        (run'.settle (.rejected err)).outcome = some (.rejected err) := by
    intro run' htokens hout'
    exact ⟨htokens, by rw [settle, hout']; rfl⟩
  rw [failRun_of_open hdone]
  split
  · apply hopen
    · rw [destroy]
      split <;> rfl
    · rw [outcome_destroy]
      exact hout
  · exact hopen run.finish rfl hout

/-- How a run reads a reply depends on its worker and its path. -/
theorem replied_congr (run run' : Run) (hworker : run.workerId = run'.workerId)
    (hstream : run.stream = run'.stream) (frames : List (Bool × Frame JsString)) :
    run.replied frames = run'.replied frames := by
  induction frames with
  | nil => rfl
  | cons e frames ih =>
      obtain ⟨rough, g⟩ := e
      cases rough with
      | true => simp [replied, badJson, hworker]
      | false => cases g <;> simp [replied, workerError, hworker, hstream, ih]

/-- The lines of frames, whatever their texts came out as, are read as the frames say. -/
theorem readLines_replied (h : List.Forall₂ (Frame.Alike Utf8.Mirrors) fs gs)
    (hdone : run.done = false) (hout : run.outcome = none) :
    (run.readLines o (gs.map Frame.line)).1.tokens = run.tokens ++ (run.replied (marked fs gs)).1 ∧
      (run.readLines o (gs.map Frame.line)).1.outcome = (run.replied (marked fs gs)).2 := by
  induction h generalizing run with
  | nil => exact ⟨(List.append_nil _).symm, hout⟩
  | @cons f g fs gs hfg hrest ih =>
      have hline := onLine_frame (o := o) run hfg
      have hmarked : marked (f :: fs) (g :: gs) = (f.rough, g) :: marked fs gs := rfl
      rw [List.map_cons, readLines, hline, hmarked]
      cases hrough : f.rough with
      | true =>
          have hfail := outcome_failRun hdone hout run.badJson
          simpa [hrough, replied] using hfail
      | false =>
          rw [if_neg (by decide)]
          cases g with
          | token requestId piece =>
              rw [onFrame_token, replied]
              cases hstream : run.stream with
              | false => simpa [hstream] using ih hdone hout
              | true =>
                  have hdone' : (run.onToken piece).done = false := hdone
                  have hout' : (run.onToken piece).outcome = none := hout
                  have hmore := ih hdone' hout'
                  rw [replied_congr (run.onToken piece) run rfl rfl] at hmore
                  simpa [onToken] using hmore
          | result requestId text device degradedReason =>
              rw [onFrame_result, onResult_of_open hdone, frameResult_result, replied]
              refine ⟨(List.append_nil _).symm, ?_⟩
              show (run.outcome <|> some _) = _
              rw [hout]
              rfl
          | error requestId message =>
              have hfail := outcome_failRun hdone hout (run.workerError message)
              rw [onFrame_error, replied]
              simpa using hfail

/-- A run that cannot read a frame of the reply is rejected. -/
theorem replied_rough (hreply : IsReply fs) (hgs : List.Forall₂ (Frame.Alike Utf8.Mirrors) fs gs)
    (hrough : ∃ f ∈ fs, f.rough = true) :
    (run.replied (marked fs gs)).2 = some (.rejected run.badJson) := by
  induction hgs with
  | nil =>
      obtain ⟨f, hf, -⟩ := hrough
      cases hf
  | @cons f g fs gs hfg hrest ih =>
      show (run.replied ((f.rough, g) :: marked fs gs)).2 = _
      cases hthis : f.rough with
      | true => rfl
      | false =>
          obtain ⟨e, he, hrough⟩ := hrough
          obtain rfl | he := List.mem_cons.mp he
          · rw [hthis] at hrough
            cases hrough
          · have hlater := ih hreply.tail ⟨e, he, hrough⟩
            have htoken : f.isToken = true := by
              apply hreply f
              cases fs with
              | nil => cases he
              | cons f' fs => exact List.mem_cons_self
            cases hfg with
            | token hid hpiece => exact hlater
            | result hid htext hdevice hreason => cases htoken
            | error hid hmessage => cases htoken

/-- A run whose client has connected and has not been sent anything. -/
structure Fresh (run : Run) : Prop where
  isOpen : run.Open
  buffer : run.buffer = []
  tokens : run.tokens = []
  outcome : run.outcome = none

/-- The line of a frame is a result only if the frame is one. -/
theorem isToken_of_isResult (hfg : f.Alike Utf8.Mirrors g) (h : IsResult g.line) :
    f.isToken = false := by
  obtain ⟨msg, hparse, htype⟩ := h
  rw [Frame.trim_line, hfg.parse_line] at hparse
  split at hparse
  · cases hparse
  · obtain rfl := Option.some.inj hparse
    cases hfg with
    | @token _ requestId _ piece =>
        have hother : WorkerPool.isType (Frame.object (.token requestId piece)) "result" = false :=
          rfl
        exact absurd (hother.symm.trans htype) (by decide)
    | result => rfl
    | error => rfl

/-- The handler does not throw on the line of a frame. -/
theorem readable_line (hfg : f.Alike Utf8.Mirrors g) : Readable o (Json.trim g.line) := by
  have hparse : Json.parse (Json.trim g.line) = if f.rough then none else some g.object := by
    rw [Frame.trim_line, hfg.parse_line]
  constructor
  · intro h
    rw [hparse] at h
    split at h
    · cases h
    · cases Option.some.inj h
  · intro run msg h
    rw [hparse] at h
    split at h
    · cases h
    · obtain rfl := Option.some.inj h
      exact textless_object run g

/-- In a reply, only the last line is a result. -/
theorem back_eq_nil (hreply : IsReply fs) (hgs : List.Forall₂ (Frame.Alike Utf8.Mirrors) fs gs)
    {front back : List JsString} {line : JsString} (h : gs.map Frame.line = front ++ line :: back)
    (hresult : IsResult line) : back = [] := by
  induction hgs generalizing front with
  | nil => simp at h
  | @cons f g fs gs hfg hrest ih =>
      rw [List.map_cons] at h
      cases front with
      | nil =>
          obtain ⟨rfl, rfl⟩ := List.cons.inj h
          have hlast := isToken_of_isResult hfg hresult
          cases hrest with
          | nil => rfl
          | cons hmore hrest =>
              have hmust := hreply f (by simp)
              rw [hlast] at hmust
              cases hmust
      | cons l front =>
          exact ih hreply.tail (List.cons.inj h).2

theorem readable_lines (hgs : List.Forall₂ (Frame.Alike Utf8.Mirrors) fs gs) :
    ∀ l ∈ gs.map Frame.line, Readable o (Json.trim l) := by
  induction hgs with
  | nil => simp
  | cons hfg _ ih =>
      rw [List.map_cons, List.forall_mem_cons]
      exact ⟨readable_line hfg, ih⟩

end Replies

end Run

namespace WorkerPool

variable {o : Options} {s : WorkerPool} {r : ℕ} {run : Run} {fs : List (Frame Bytes)}
  {gs : List (Frame JsString)} {chunks : List (List UInt8)}

/-- Frames that come in chunks, and behind them a part of a line, are read as their lines say,
wherever the chunks cut them, if nothing comes behind a result. -/
theorem receive_frames (hr : s.runs[r]? = some run) (hlive : s.threw = false) (hrun : run.Fresh)
    (hgs : List.Forall₂ (Frame.Alike Utf8.Mirrors) fs gs) {tail : JsString}
    (htail : (0x0A : Utf8.CodeUnit) ∉ tail)
    (h : Utf8.decodeAll chunks = Lines.joined 0x0A (gs.map Frame.line) ++ tail)
    (hresult : ∀ front line back, gs.map Frame.line = front ++ line :: back → Run.IsResult line →
      back = [] ∧ tail = []) :
    (∃ b, (s.receive o r chunks).runs[r]? =
        some ((run.readLines o (gs.map Frame.line)).1.setBuffer b)) ∧
      (s.receive o r chunks).threw = false := by
  have hclean : ∀ l ∈ gs.map Frame.line, (0x0A : Utf8.CodeUnit) ∉ l := by
    intro l hl
    obtain ⟨g, -, rfl⟩ := List.mem_map.mp hl
    exact Frame.newline_notMem_line g
  have hreadable := Run.readable_lines (o := o) hgs
  have hall : run.buffer ++ Utf8.decodeAll chunks = Lines.joined 0x0A (gs.map Frame.line) ++ tail := by
    rw [hrun.buffer, h, List.nil_append]
  have hbuffer : (0x0A : Utf8.CodeUnit) ∉ run.buffer := by
    rw [hrun.buffer]
    exact List.not_mem_nil
  obtain ⟨hruns, hthrew⟩ := runs_receive (o := o) hr hlive hclean htail hall hreadable
  obtain ⟨b, hread⟩ := Run.receive_lines (o := o) hrun.isOpen hbuffer hclean htail hall hreadable
    fun front line back heq hline _ => hresult front line back heq hline
  exact ⟨⟨b, by rw [hruns, hread]⟩, hthrew⟩

/-- A reply that comes in chunks is read as its lines say, wherever the chunks cut them. -/
theorem receive_reply (hr : s.runs[r]? = some run) (hlive : s.threw = false) (hrun : run.Fresh)
    (hreply : IsReply fs) (hgs : List.Forall₂ (Frame.Alike Utf8.Mirrors) fs gs)
    (h : Utf8.decodeAll chunks = Lines.joined 0x0A (gs.map Frame.line)) :
    ∃ run', (s.receive o r chunks).runs[r]? = some run' ∧
      run'.tokens = (run.replied (Run.marked fs gs)).1 ∧
      run'.outcome = (run.replied (Run.marked fs gs)).2 := by
  obtain ⟨⟨b, hruns⟩, -⟩ := receive_frames (o := o) hr hlive hrun hgs List.not_mem_nil
    (h.trans (List.append_nil _).symm)
    fun front line back heq hline => ⟨Run.back_eq_nil hreply hgs heq hline, rfl⟩
  obtain ⟨htokens, houtcome⟩ := Run.readLines_replied (o := o) hgs hrun.isOpen.1 hrun.outcome
  refine ⟨_, hruns, ?_, houtcome⟩
  show (run.readLines o (gs.map Frame.line)).1.tokens = _
  rw [htokens, hrun.tokens, List.nil_append]

end WorkerPool

end ServeInfer.ApiServer
