import ServeInfer.ApiServer.Isolation
import ServeInfer.ApiServer.ReplyFrames
import ServeInfer.ApiServer.TokenSum

/-!
# Faults presented as answers

A worker's reply does not say that the router's walk has failed: it ends in a result in
any case, with which the api-server answers its callers and which it caches. A caller is
told of an error only where the reply does not come as a whole, or where a control
character makes a line of it unreadable.
-/

namespace ServeInfer.ApiServer

open InferenceWorker Device Utf8

section Answers

variable {env : RouterEnv} {w : Worker} {job : InferenceJob}

/-- The text that a worker answers with. -/
def presented (env : RouterEnv) (w : Worker) (job : InferenceJob) : String :=
  if job.stream then (w.routed env job.prompt true).1.text
  else (w.generateWithFallback env job.prompt).1

/-- The pieces that a worker hands on before that. -/
def handedOn (env : RouterEnv) (w : Worker) (job : InferenceJob) : List String :=
  if job.stream then (w.streamWithFallback env job.prompt).1 else []

/-- The reason that a worker gives with its answer. -/
def givenReason (env : RouterEnv) (w : Worker) (job : InferenceJob) : Option String :=
  let ladder := (w.routed env job.prompt job.stream).2.router.ladder
  if ladder.degraded then some ladder.degradedReason else none

/-- A text of the reply has a control character that its escape leaves as it is. -/
def Unreadable (env : RouterEnv) (w : Worker) (job : InferenceJob) : Prop :=
  ∃ x ∈ job.requestId :: presented env w job ::
      (handedOn env w job ++ (givenReason env w job).toList),
    rough (bytes x) = true

instance : Decidable (Unreadable env w job) :=
  inferInstanceAs (Decidable (∃ x ∈ _, rough (bytes x) = true))

/-- Whatever the router's result is, the worker answers with a result. -/
theorem answer_eq (env : RouterEnv) (w : Worker) (job : InferenceJob) :
    (w.answer env job).1 = streamed (bytes job.requestId) ((handedOn env w job).map bytes)
      (bytes (presented env w job))
      (bytes (w.routed env job.prompt job.stream).2.activeDevice)
      ((givenReason env w job).map bytes) := by
  have hreason (w' : Worker) :
      (if w'.router.ladder.degraded then some (bytes w'.router.ladder.degradedReason) else none) =
        (if w'.router.ladder.degraded then some w'.router.ladder.degradedReason else none).map
          bytes := by
    split_ifs <;> rfl
  unfold streamed handedOn presented givenReason
  cases hstream : job.stream with
  | true =>
      rw [Worker.answer_stream hstream, List.map_map, Worker.resultFrame, hreason]
      rfl
  | false =>
      rw [Worker.answer_buffered hstream, Worker.resultFrame, hreason]
      rfl

theorem rough_of_plain {x : Bytes} (h : x.all plain = true) : rough x = false := by
  have hall : ∀ b : UInt8, plain b = true → raw b = false := by
    intro b hb
    simp only [plain, Bool.and_eq_true, Bool.not_eq_true', decide_eq_false_iff_not] at hb
    simp [raw, hb.2]
  rw [rough, List.any_eq_false]
  intro b hb
  rw [hall b (List.all_eq_true.mp h b hb)]
  exact Bool.false_ne_true

theorem rough_streamed_iff {requestId text device : Bytes} {tokens : List Bytes}
    {reason : Option Bytes} (hdevice : rough device = false) :
    (∃ f ∈ streamed requestId tokens text device reason, f.rough = true) ↔
      ∃ x ∈ requestId :: text :: (tokens ++ reason.toList), rough x = true := by
  simp only [streamed, Frame.rough, List.mem_append, List.mem_map, List.any_eq_true, List.mem_cons,
    List.not_mem_nil, or_false]
  constructor
  · rintro ⟨f, ⟨token, htoken, rfl⟩ | rfl, x, hx, hrough⟩
    · simp only [Frame.texts, List.mem_cons, List.not_mem_nil, or_false] at hx
      obtain rfl | rfl := hx
      · exact ⟨x, .inl rfl, hrough⟩
      · exact ⟨x, .inr (.inr (.inl htoken)), hrough⟩
    · simp only [Frame.texts, List.mem_cons] at hx
      obtain rfl | rfl | rfl | hreason := hx
      · exact ⟨x, .inl rfl, hrough⟩
      · exact ⟨x, .inr (.inl rfl), hrough⟩
      · rw [hdevice] at hrough
        cases hrough
      · exact ⟨x, .inr (.inr (.inr hreason)), hrough⟩
  · rintro ⟨x, rfl | rfl | htoken | hreason, hrough⟩
    · exact ⟨_, .inr rfl, x, by simp [Frame.texts], hrough⟩
    · exact ⟨_, .inr rfl, x, by simp [Frame.texts], hrough⟩
    · exact ⟨_, .inl ⟨x, htoken, rfl⟩, x, by simp [Frame.texts], hrough⟩
    · exact ⟨_, .inr rfl, x, by simp [Frame.texts, hreason], hrough⟩

/-- A frame of the reply cannot be read exactly when a text is unreadable: the device's name is
none. -/
theorem rough_answer_iff (hw : w.Started env) (job : InferenceJob) :
    (∃ f ∈ (w.answer env job).1, f.rough = true) ↔ Unreadable env w job := by
  rw [answer_eq, rough_streamed_iff (rough_of_plain (hw.plain_routed job.prompt job.stream))]
  have hreason : ((givenReason env w job).map bytes).toList =
      (givenReason env w job).toList.map bytes := by
    cases givenReason env w job <;> rfl
  have htexts : bytes job.requestId :: bytes (presented env w job) ::
      ((handedOn env w job).map bytes ++ ((givenReason env w job).map bytes).toList) =
        (job.requestId :: presented env w job ::
          (handedOn env w job ++ (givenReason env w job).toList)).map bytes := by
    rw [hreason, List.map_cons, List.map_cons, List.map_append]
  rw [htexts]
  simp only [List.mem_map, exists_exists_and_eq_and]
  exact Iff.rfl

end Answers

section Cut

variable {fs front back : List (Frame Bytes)} {f : Frame Bytes} {x y : Bytes}

/-- A part of the bytes of some frames ends inside one of them. -/
theorem exists_cut (h : x <+: written fs) (hne : x ≠ written fs) :
    ∃ front f back y line, fs = front ++ f :: back ∧ x = written front ++ y ∧ y <+: line ∧
      f.json = line ++ [0x0A] := by
  induction fs generalizing x with
  | nil => exact absurd (List.prefix_nil.mp h) hne
  | cons f fs ih =>
      rw [written_cons] at h hne
      by_cases hwhole : f.json <+: x
      · obtain ⟨x', rfl⟩ := hwhole
        have hrest : x' ≠ written fs := fun heq => hne (by rw [heq])
        obtain ⟨front, f', back, y, line, rfl, rfl, hy, hjson⟩ :=
          ih ((List.prefix_append_right_inj f.json).mp h) hrest
        refine ⟨f :: front, f', back, y, line, rfl, ?_, hy, hjson⟩
        rw [written_cons, List.append_assoc]
      · obtain ⟨line, hline⟩ := exists_json f
        have hinside : x <+: f.json :=
          (List.prefix_or_prefix_of_prefix (List.prefix_append f.json _) h).resolve_left hwhole
        rw [hline] at hinside hwhole
        obtain rfl | hpart := List.prefix_concat_iff.mp hinside
        · exact absurd List.prefix_rfl hwhole
        · exact ⟨[], f, fs, x, line, rfl, rfl, hpart, hline⟩

/-- Inside a frame there is no newline. -/
theorem newline_notMem_of_prefix_line {line : Bytes} (hdevice : f.plainDevice = true)
    (hline : f.json = line ++ [0x0A]) (hy : y <+: line) : (0x0A : UInt8) ∉ y := by
  intro hmem
  have hclean : (0x0A : UInt8) ∉ line := by
    apply newline_notMem_of_decode
    rw [decode_line hline, Frame.map_decode_escaped hdevice]
    exact Frame.newline_notMem_line _
  exact hclean (hy.subset hmem)

end Cut

namespace Run

variable {o : Options} {run : Run} {fs : List (Frame Bytes)} {gs : List (Frame JsString)}
  {requestId text device : Bytes} {tokens : List Bytes} {reason : Option Bytes}

/-- A run that has written its frame, and that nothing else has happened to. -/
structure Connected (run : Run) : Prop extends run.Fresh where
  closed : run.closed = false
  destroyError : run.destroyError = none

/-- Tokens that can be read leave the run as it was, but for what it has handed on. -/
theorem readLines_tokens (hgs : List.Forall₂ (Frame.Alike Mirrors) fs gs)
    (htokens : ∀ f ∈ fs, f.isToken = true) (hclean : ∀ f ∈ fs, f.rough = false) :
    ∃ ts, run.readLines o (gs.map Frame.line) = ({ run with tokens := ts }, none) := by
  induction hgs generalizing run with
  | nil => exact ⟨run.tokens, rfl⟩
  | @cons f g fs gs hfg _ ih =>
      obtain ⟨htoken, hmore⟩ := List.forall_mem_cons.mp htokens
      obtain ⟨hrough, hrest⟩ := List.forall_mem_cons.mp hclean
      rw [List.map_cons, readLines, onLine_frame run hfg, hrough, if_neg (by decide)]
      cases hfg with
      | @token _ requestId _ piece hid hpiece =>
          rw [onFrame_token]
          by_cases hstream : run.stream = true
          · rw [if_pos hstream]
            have hlater : ∃ ts, (run.onToken piece).readLines o (gs.map Frame.line) =
                ({ run with tokens := ts }, none) := ih hmore hrest
            exact hlater
          · rw [if_neg hstream]
            exact ih hmore hrest
      | result hid htext hdevice hreason => cases htoken
      | error hid hmessage => cases htoken

/-- No line of a token is a result. -/
theorem not_isResult_of_tokens (hgs : List.Forall₂ (Frame.Alike Mirrors) fs gs)
    (htokens : ∀ f ∈ fs, f.isToken = true) : ∀ l ∈ gs.map Frame.line, ¬ IsResult l := by
  induction hgs with
  | nil => simp
  | cons hfg _ ih =>
      obtain ⟨htoken, hmore⟩ := List.forall_mem_cons.mp htokens
      rw [List.map_cons, List.forall_mem_cons]
      refine ⟨?_, ih hmore⟩
      intro hresult
      rw [isToken_of_isResult hfg hresult] at htoken
      cases htoken

/-- A run that waits still is rejected when its socket closes. -/
theorem outcome_onClose (hdone : run.done = false) (hout : run.outcome = none) :
    run.onClose.outcome = some (.rejected run.closeError) := by
  rw [onClose, if_neg (by rw [hdone]; decide)]
  have hopen : ({ run with destroyed := true, closed := true } : Run).done = false := hdone
  exact (outcome_failRun hopen hout _).2

end Run

namespace WorkerPool

variable {o : Options} {s : WorkerPool} {r : ℕ} {run : Run} {fs : List (Frame Bytes)}
  {chunks : List Bytes} {x : Outcome}

/-- The chunks come over a run's connection, and it closes; events that a socket no longer has are
left out. -/
def hearOut (o : Options) (s : WorkerPool) (r : ℕ) (chunks : List Bytes) : WorkerPool :=
  (poolStep o (s.receive o r chunks) (.close r)).getD (s.receive o r chunks)

theorem threw_close (s : WorkerPool) (r : ℕ) : ((s.closed r).onClose o r).threw = s.threw := by
  unfold onClose
  split
  · rfl
  · split
    · rfl
    · exact threw_failRun _ r _

theorem poolStep_close (hlive : s.threw = false) (hr : s.runs[r]? = some run) :
    poolStep o s (.close r) = if run.canClose then some ((s.closed r).onClose o r) else none := by
  simp [poolStep, guardRun, hlive, hr]

/-- The close of a socket leaves a promise that is settled as it is. -/
theorem hearOut_of_settled (hlive : (s.receive o r chunks).threw = false)
    (hr : (s.receive o r chunks).runs[r]? = some run) (hout : run.outcome = some x) :
    (s.hearOut o r chunks).threw = false ∧
      ∃ run', (s.hearOut o r chunks).runs[r]? = some run' ∧ run'.outcome = some x := by
  rw [hearOut, poolStep_close hlive hr]
  split
  · refine ⟨(threw_close _ r).trans hlive, run.onClose, ?_, run.later_onClose.outcome x hout⟩
    rw [Option.getD_some, runs_onClose, List.getElem?_modify_eq, hr]
    rfl
  · exact ⟨hlive, run, hr, hout⟩

/-- The close of the socket of a run that waits still rejects it. -/
theorem hearOut_of_waiting (hlive : (s.receive o r chunks).threw = false)
    (hr : (s.receive o r chunks).runs[r]? = some run) (hcan : run.canClose = true)
    (hdone : run.done = false) (hout : run.outcome = none) :
    (s.hearOut o r chunks).threw = false ∧
      ∃ run', (s.hearOut o r chunks).runs[r]? = some run' ∧
        run'.outcome = some (.rejected run.closeError) := by
  rw [hearOut, poolStep_close hlive hr, if_pos hcan, Option.getD_some]
  refine ⟨(threw_close _ r).trans hlive, run.onClose, ?_, Run.outcome_onClose hdone hout⟩
  rw [runs_onClose, List.getElem?_modify_eq, hr]
  rfl

section Replies

variable {requestId text device : Bytes} {tokens : List Bytes} {reason : Option Bytes}
  (hlive : s.threw = false) (hr : s.runs[r]? = some run) (hrun : run.Connected)
  (hfs : fs = streamed requestId tokens text device reason)
  (hdevice : ∀ f ∈ fs, f.plainDevice = true)

include hlive hr hrun hfs hdevice

/-- A reply that comes as a whole resolves its run exactly when it can be read. -/
theorem hearOut_whole (hchunks : chunks.flatten = written fs) :
    (s.hearOut o r chunks).threw = false ∧
      ∃ run' x, (s.hearOut o r chunks).runs[r]? = some run' ∧ run'.outcome = some x ∧
        (x.result? = none ↔ ∃ f ∈ fs, f.rough = true) := by
  have hreply : IsReply fs := by
    rw [hfs]
    exact isReply_streamed _ _ _ _ _
  obtain ⟨gs, hgs, -, hlines⟩ := decodeAll_whole hdevice hchunks
  rw [← List.append_nil (Lines.joined _ _)] at hlines
  obtain ⟨⟨b, hruns⟩, hlive'⟩ := receive_frames (o := o) hr hlive hrun.toFresh hgs List.not_mem_nil
    hlines fun front line back heq hline => ⟨Run.back_eq_nil hreply hgs heq hline, rfl⟩
  obtain ⟨-, hout⟩ := Run.readLines_replied (o := o) hgs hrun.isOpen.1 hrun.outcome
  by_cases hrough : ∃ f ∈ fs, f.rough = true
  · rw [Run.replied_rough hreply hgs hrough] at hout
    obtain ⟨hthrew, run', hr', hout'⟩ := hearOut_of_settled hlive' hruns hout
    exact ⟨hthrew, run', _, hr', hout', iff_of_true rfl hrough⟩
  · have hclean : ∀ f ∈ fs, f.rough = false := by simpa using hrough
    subst hfs
    obtain ⟨ts, result, hreplied, -⟩ := replied_streamed run hgs hclean
    rw [hreplied] at hout
    obtain ⟨hthrew, run', hr', hout'⟩ := hearOut_of_settled hlive' hruns hout
    refine ⟨hthrew, run', _, hr', hout', iff_of_false ?_ hrough⟩
    intro hnone
    cases hnone

/-- A reply that is cut off rejects its run. -/
theorem hearOut_part (hpart : chunks.flatten <+: written fs) (hne : chunks.flatten ≠ written fs) :
    (s.hearOut o r chunks).threw = false ∧
      ∃ run' err, (s.hearOut o r chunks).runs[r]? = some run' ∧
        run'.outcome = some (.rejected err) := by
  obtain ⟨front, f, back, y, line, hsplit, hcut, hy, hline⟩ := exists_cut hpart hne
  have htokens : ∀ e ∈ front, e.isToken = true := by
    intro e he
    have hreply : IsReply (front ++ f :: back) := by
      rw [← hsplit, hfs]
      exact isReply_streamed _ _ _ _ _
    apply hreply e
    rw [List.dropLast_append_of_ne_nil (List.cons_ne_nil f back)]
    exact List.mem_append_left _ he
  have hreply : IsReply front := fun e he => htokens e (List.dropLast_subset front he)
  have hplain : ∀ e ∈ front, e.plainDevice = true := fun e he =>
    hdevice e (hsplit ▸ List.mem_append_left _ he)
  obtain ⟨gs, hgs, -, hlines⟩ := decodeAll_written hplain hcut
  have htail : (0x0A : CodeUnit) ∉ decodeAll (dropBytes (written front).length chunks) := by
    have hmirrors := mirrors_decodeAll (dropBytes (written front).length chunks)
    rw [flatten_dropBytes, hcut, List.drop_left] at hmirrors
    have hf : f.plainDevice = true := hdevice f (hsplit ▸ by simp)
    exact hmirrors.notMem (by decide) (newline_notMem_of_prefix_line hf hline hy)
  have hnone := Run.not_isResult_of_tokens hgs htokens
  obtain ⟨⟨b, hruns⟩, hlive'⟩ := receive_frames (o := o) hr hlive hrun.toFresh hgs htail hlines
    fun ls l more heq hresult => absurd hresult (hnone l (by simp [heq]))
  by_cases hrough : ∃ e ∈ front, e.rough = true
  · obtain ⟨-, hout⟩ := Run.readLines_replied (o := o) hgs hrun.isOpen.1 hrun.outcome
    rw [Run.replied_rough hreply hgs hrough] at hout
    obtain ⟨hthrew, run', hr', hout'⟩ := hearOut_of_settled hlive' hruns hout
    exact ⟨hthrew, run', _, hr', hout'⟩
  · have hclean : ∀ e ∈ front, e.rough = false := by simpa using hrough
    have hwaiting : ∃ ts, run.readLines o (gs.map Frame.line) = ({ run with tokens := ts }, none) :=
      Run.readLines_tokens hgs htokens hclean
    obtain ⟨ts, hread⟩ := hwaiting
    rw [hread] at hruns
    obtain ⟨hdone, hdata⟩ := hrun.isOpen
    have hcan : (Run.setBuffer { run with tokens := ts } b).canClose = true := by
      rw [Run.canData, Bool.and_eq_true] at hdata
      have hopen : (Run.setBuffer { run with tokens := ts } b).canClose = run.canClose := rfl
      rw [hopen, Run.canClose, hrun.closed, hrun.destroyError, hdata.1]
      simp
    obtain ⟨hthrew, run', hr', hout'⟩ := hearOut_of_waiting hlive' hruns hcan hdone hrun.outcome
    exact ⟨hthrew, run', _, hr', hout'⟩

end Replies

end WorkerPool

/-- A reply with an error's status, or the event of one. -/
def StreamReply.isError : StreamReply → Bool
  | .json reply => 400 ≤ reply.status
  | .event e => e.event = "error"

/-- An error is what a caller is told when its promise is rejected. -/
theorem isError_reply (request : InferRequest) (replay : Bool) (x : Outcome) :
    (Replies.reply request replay x).isError = x.result?.isNone := by
  unfold Replies.reply
  cases x with
  | resolved result => split <;> rfl
  | rejected err =>
      split
      · rw [Replies.stream, Replies.streamError]
        split <;> rfl
      · rw [Replies.post, Replies.postError]
        split_ifs <;> rfl

namespace RegistryState

variable {β : Type*} {s : RegistryState β} {ttl now : ℤ} {p : ℕ} {x : Execution β}

/-- The id of an execution that has failed is new from then on. -/
theorem Sound.lookup_failed (h : s.Sound ttl) (hx : s.executions.get? p = some x) (hopen : x.Open)
    (hle : s.clock ≤ now) (later : ℤ) :
    ((s.onAnswer p x none now).registry.lookup x.requestId later).1 = { state := .new } := by
  obtain ⟨e, he, -⟩ := h.filed hx hopen
  have hfailed := h.failed hx hopen hle
  have hinflight : ((s.onAnswer p x none now).registry.evictCompleted later).inflight.get?
      x.requestId = none := by
    show (s.registry.forget x.requestId).inflight.get? x.requestId = none
    rw [RequestRegistry.forget, RequestRegistry.inflight_persist, OrderedMap.get?_delete,
      if_pos rfl]
  have hcompleted : ((s.onAnswer p x none now).registry.evictCompleted later).completed.get?
      x.requestId = none := by
    have hnone : (s.registry.forget x.requestId).completed.get? x.requestId = none := by
      rw [RequestRegistry.forget, RequestRegistry.completed_persist]
      exact h.apart he
    rw [hfailed.finishOrder.get?_evict]
    exact congrArg _ hnone
  simp [RequestRegistry.lookup, OrderedMap.has, hinflight, hcompleted]

/-- The result of an execution is replayed to its id while the window lasts. -/
theorem Sound.lookup_succeeded (h : s.Sound ttl) (hx : s.executions.get? p = some x)
    (hopen : x.Open) (hle : s.clock ≤ now) (result : β) {later : ℤ} (hlater : now ≤ later)
    (hwindow : later ≤ now + ttl) :
    ((s.onAnswer p x (some result) now).registry.lookup x.requestId later).1 =
      ⟨.completed, some result⟩ := by
  have hlast : (s.onAnswer p x (some result) now).lastSuccess x.requestId =
      some ⟨x.requestId, now, result⟩ := by
    simp [lastSuccess, onAnswer]
  exact ((h.succeeded hx hopen hle result).replays p [] false hlast hlater hwindow).2

end RegistryState

namespace Server

variable {o : Options} {s : Server} {c p r : ℕ} {requestId : JsString} {now ttl : ℤ}
  {chunks : List Bytes} {run : Run} {x : Outcome}

/-- The server's next state; an event that it no longer has is left out. -/
def turn (o : Options) (s : Server) (a : ServerAction) : Server := (serverStep o s a).getD s

/-- The chunks of a run's reply, the close of its socket, and the microtasks that follow for a
caller that waits for it. -/
def course (c p r : ℕ) (now : ℤ) (chunks : List Bytes) : List ServerAction :=
  chunks.map (fun chunk => .pool (.data r chunk)) ++
    [.pool (.close r), .settleExecute p, .react p now, .resume c]

/-- The server after these. -/
def after (o : Options) (s : Server) (c p r : ℕ) (now : ℤ) (chunks : List Bytes) : Server :=
  (course c p r now chunks).foldl (turn o) s

/-- A server in which the caller waits for the execution, whose run has written its request and has
no reply yet. -/
structure Waits (o : Options) (s : Server) (c p r : ℕ) (requestId : JsString) : Prop where
  reached : ∃ ttl file now as, Machine.exec (serverStep o) (init o ttl file now) as = some s
  live : s.pool.threw = false
  caller : ∃ caller, s.callers[c]? = some caller ∧ caller.Joined p ∧ caller.outcome = none
  opened : s.Opened p r
  running : s.registry.executions.get? p = some ⟨requestId, .running⟩
  run : ∃ run, s.pool.runs[r]? = some run ∧ run.Connected

/-- The caller has been told of an error, and its id is new from then on. -/
def Reported (s : Server) (c : ℕ) (requestId : JsString) (now : ℤ) : Prop :=
  (∃ caller reply, s.callers[c]? = some caller ∧ caller.reply = some reply ∧
    reply.isError = true) ∧
  ∀ later, now ≤ later → (s.registry.registry.lookup requestId later).1.state = .new

/-- The caller has been answered with a result, which its id replays while the window lasts. -/
def Answered (s : Server) (c : ℕ) (requestId : JsString) (now : ℤ) : Prop :=
  ∃ caller result reply, s.callers[c]? = some caller ∧ caller.outcome = some (.resolved result) ∧
    caller.reply = some reply ∧ reply.isError = false ∧
    ∀ later, now ≤ later → later ≤ now + s.registry.registry.idempotencyTtlMs →
      (s.registry.registry.lookup requestId later).1 = ⟨.completed, some result⟩

theorem Waits.sound (h : Waits o s c p r requestId) : ∃ ttl, s.registry.Sound ttl := by
  obtain ⟨ttl, file, now, as, hexec⟩ := h.reached
  have hlinked : s.Linked ttl := Machine.exec_invariant (linked_init o ttl file now)
    (fun _ _ _ hl hs => hl.served (served_of_step hs)) hexec
  exact ⟨ttl, hlinked.sound⟩

/-- The pool's part of a turn. -/
theorem turn_pool {a : PoolAction} (ha : a.ofPool = true) :
    turn o s (.pool a) = { s with pool := (poolStep o s.pool a).getD s.pool } := by
  by_cases hthrew : s.pool.threw = true
  · have hnone : poolStep o s.pool a = none := by
      unfold poolStep
      rw [if_pos hthrew]
    rw [turn, serverStep, if_pos hthrew, hnone]
    rfl
  · rw [turn, serverStep, if_neg hthrew]
    show ((if a.ofPool then _ else none : Option Server)).getD s = _
    rw [if_pos ha]
    cases poolStep o s.pool a <;> rfl

theorem foldl_data (s : Server) : (chunks.map fun chunk => ServerAction.pool (.data r chunk)).foldl
    (turn o) s = { s with pool := s.pool.receive o r chunks } := by
  induction chunks generalizing s with
  | nil => rfl
  | cons chunk chunks ih =>
      rw [List.map_cons, List.foldl_cons, turn_pool rfl, ih]
      rfl

/-- The chunks and the close are the pool's, the rest is the registry's and the caller's. -/
theorem after_eq : after o s c p r now chunks =
    turn o (turn o (turn o { s with pool := s.pool.hearOut o r chunks } (.settleExecute p))
      (.react p now)) (.resume c) := by
  rw [after, course, List.foldl_append, foldl_data, List.foldl_cons, turn_pool rfl]
  rfl

/-- The registry when the reaction to the execution's answer is over. -/
def reacted (s : Server) (p : ℕ) (requestId : JsString) (outcome : Option InferenceResult)
    (now : ℤ) : RegistryState InferenceResult :=
  (s.registry.setPhase p ⟨requestId, .running⟩ (.answered outcome)).onAnswer p
    ⟨requestId, .answered outcome⟩ outcome now

theorem settled_reacted (s : Server) (p : ℕ) (requestId : JsString)
    (outcome : Option InferenceResult) (now : ℤ) :
    (s.reacted p requestId outcome now).executions.get? p =
      some ⟨requestId, .settled outcome⟩ :=
  (OrderedMap.get?_set ..).trans (if_pos rfl)

section Microtasks

variable (hlive : s.pool.threw = false)

include hlive

theorem turn_settleExecute (hrunning : s.registry.executions.get? p = some ⟨requestId, .running⟩)
    (hx : s.answer p = some x) :
    turn o s (.settleExecute p) = { s with
      registry := s.registry.setPhase p ⟨requestId, .running⟩ (.answered x.result?) } := by
  simp [turn, serverStep, hlive, settleExecute, hx, registryStep, hrunning]

theorem turn_react {outcome : Option InferenceResult}
    (hanswered : s.registry.executions.get? p = some ⟨requestId, .answered outcome⟩)
    (hnow : s.registry.clock ≤ now) :
    turn o s (.react p now) = { s with
      registry := s.registry.onAnswer p ⟨requestId, .answered outcome⟩ outcome now } := by
  simp [turn, serverStep, hlive, registryStep, hanswered, hnow]

theorem turn_resume {caller : Caller} {outcome : Option InferenceResult}
    (hc : s.callers[c]? = some caller) (hjoined : caller.Joined p) (hnone : caller.outcome = none)
    (hsettled : s.registry.executions.get? p = some ⟨requestId, .settled outcome⟩)
    (hx : s.answer p = some x) :
    ∃ replay, turn o s (.resume c) = s.setCaller c fun old => { old with
      outcome := some x
      reply := some (Replies.reply caller.request replay x) } := by
  obtain ⟨request, attempt, outcome', reply, connected⟩ := caller
  obtain rfl : outcome' = none := hnone
  obtain ⟨attempt, rfl, hpromise⟩ := Option.map_eq_some_iff.mp hjoined
  refine ⟨attempt.replay, ?_⟩
  have hx' : s.settled attempt.promise = some x := by
    rw [hpromise]
    simp only [settled, hsettled, hx]
  simp [turn, serverStep, hlive, resume, hc, hx']

theorem turn_reacted (hrunning : s.registry.executions.get? p = some ⟨requestId, .running⟩)
    (hx : s.answer p = some x) (hnow : s.registry.clock ≤ now) :
    turn o (turn o s (.settleExecute p)) (.react p now) =
      { s with registry := s.reacted p requestId x.result? now } := by
  have hanswered : (s.registry.setPhase p ⟨requestId, .running⟩
      (.answered x.result?)).executions.get? p = some ⟨requestId, .answered x.result?⟩ :=
    (OrderedMap.get?_set ..).trans (if_pos rfl)
  rw [turn_settleExecute hlive hrunning hx]
  exact turn_react (s := { s with
    registry := s.registry.setPhase p ⟨requestId, .running⟩ (.answered x.result?) }) hlive hanswered
    hnow

/-- How the promise of `execute` is settled is what the caller is told, and what the registry goes
by. -/
theorem turns_of_answer {caller : Caller} (hc : s.callers[c]? = some caller)
    (hjoined : caller.Joined p) (hnone : caller.outcome = none)
    (hrunning : s.registry.executions.get? p = some ⟨requestId, .running⟩)
    (hx : s.answer p = some x) (hnow : s.registry.clock ≤ now) :
    ∃ caller' reply,
      (turn o (turn o (turn o s (.settleExecute p)) (.react p now)) (.resume c)).callers[c]? =
        some caller' ∧ caller'.outcome = some x ∧ caller'.reply = some reply ∧
      reply.isError = x.result?.isNone ∧
      (turn o (turn o (turn o s (.settleExecute p)) (.react p now)) (.resume c)).registry =
        s.reacted p requestId x.result? now := by
  have hsettled := settled_reacted s p requestId x.result? now
  rw [turn_reacted hlive hrunning hx hnow]
  obtain ⟨replay, hresume⟩ := turn_resume (o := o)
    (s := { s with registry := s.reacted p requestId x.result? now }) hlive hc hjoined hnone
    hsettled hx
  rw [hresume]
  refine ⟨{ caller with
    outcome := some x
    reply := some (Replies.reply caller.request replay x) }, _, ?_, rfl, rfl,
    isError_reply caller.request replay x, rfl⟩
  rw [setCaller, List.getElem?_modify_eq, hc]
  rfl

end Microtasks

section Settled

variable (hs : Waits o s c p r requestId) (hnow : s.registry.clock ≤ now)
  (hlive : (s.pool.hearOut o r chunks).threw = false)
  (hr : (s.pool.hearOut o r chunks).runs[r]? = some run)

include hs hnow hlive hr

/-- How the run has come out is what the caller is told, and what the registry goes by. -/
theorem after_of_outcome (hout : run.outcome = some x) :
    ∃ caller reply, (after o s c p r now chunks).callers[c]? = some caller ∧
      caller.outcome = some x ∧ caller.reply = some reply ∧ reply.isError = x.result?.isNone ∧
      (after o s c p r now chunks).registry = s.reacted p requestId x.result? now := by
  obtain ⟨caller, hc, hjoined, hnone⟩ := hs.caller
  have hanswer : ({ s with pool := s.pool.hearOut o r chunks } : Server).answer p = some x :=
    answer_eq_some.mpr (.inr ⟨r, run, hs.opened, hr, hout⟩)
  rw [after_eq]
  exact turns_of_answer (o := o) (s := { s with pool := s.pool.hearOut o r chunks }) hlive hc
    hjoined hnone hs.running hanswer hnow

omit hnow hlive hr in
/-- The registry's books are in order when the execution has been answered. -/
theorem sound_answered (outcome : Option InferenceResult) :
    ∃ ttl, (s.registry.setPhase p ⟨requestId, .running⟩ (.answered outcome)).Sound ttl ∧
      (⟨requestId, .answered outcome⟩ : Execution InferenceResult).Open := by
  obtain ⟨ttl, hsound⟩ := hs.sound
  have hopen : Execution.Open (⟨requestId, .running⟩ : Execution InferenceResult) :=
    fun outcome => by simp
  exact ⟨ttl, hsound.setPhase hs.running hopen (by simp), fun outcome => by simp⟩

/-- The caller is told of an error, and the registry keeps nothing, exactly when the run has been
rejected. -/
theorem reported_of_outcome (hout : run.outcome = some x) :
    Reported (after o s c p r now chunks) c requestId now ↔ x.result? = none := by
  obtain ⟨caller, reply, hc, -, hreply, herror, hregistry⟩ :=
    after_of_outcome hs hnow hlive hr hout
  constructor
  · rintro ⟨⟨caller', reply', hc', hreply', herror'⟩, -⟩
    obtain rfl := Option.some.inj (hc.symm.trans hc')
    obtain rfl := Option.some.inj (hreply.symm.trans hreply')
    exact Option.isNone_iff_eq_none.mp (herror.symm.trans herror')
  · intro hfailed
    refine ⟨⟨caller, reply, hc, hreply, by rw [herror, hfailed]; rfl⟩, fun later _ => ?_⟩
    obtain ⟨ttl, hanswered, hopen⟩ := sound_answered hs none
    rw [hregistry, hfailed]
    have hlookup := hanswered.lookup_failed (x := ⟨requestId, .answered none⟩)
      ((OrderedMap.get?_set ..).trans (if_pos rfl)) hopen hnow later
    exact congrArg Lookup.state hlookup

/-- The caller is answered with the result that its run has been resolved with, and the registry
keeps it. -/
theorem answered_of_outcome {result : InferenceResult}
    (hout : run.outcome = some (.resolved result)) :
    Answered (after o s c p r now chunks) c requestId now := by
  obtain ⟨caller, reply, hc, houtcome, hreply, herror, hregistry⟩ :=
    after_of_outcome hs hnow hlive hr hout
  refine ⟨caller, result, reply, hc, houtcome, hreply, herror, fun later hlater hwindow => ?_⟩
  obtain ⟨ttl, hanswered, hopen⟩ := sound_answered hs (some result)
  have hget : (s.registry.setPhase p ⟨requestId, .running⟩
      (.answered (some result))).executions.get? p = some ⟨requestId, .answered (some result)⟩ :=
    (OrderedMap.get?_set ..).trans (if_pos rfl)
  have httl : (s.reacted p requestId (some result) now).registry.idempotencyTtlMs = ttl :=
    (hanswered.succeeded hget hopen hnow result).window
  rw [hregistry] at hwindow ⊢
  rw [Outcome.result?, httl] at hwindow
  exact hanswered.lookup_succeeded (x := ⟨requestId, .answered (some result)⟩) hget hopen hnow
    result hlater hwindow

end Settled

/-- A worker's reply is reported as an error exactly when it does not come as a whole or cannot be
read, whatever the router's result is. -/
theorem reported_iff {env : RouterEnv} {w : Worker} {job : InferenceJob} (hw : w.Started env)
    (hs : Waits o s c p r requestId) (hnow : s.registry.clock ≤ now)
    (hpart : chunks.flatten <+: written (w.answer env job).1) :
    Reported (after o s c p r now chunks) c requestId now ↔
      chunks.flatten ≠ written (w.answer env job).1 ∨ Unreadable env w job := by
  obtain ⟨run, hr, hrun⟩ := hs.run
  by_cases hwhole : chunks.flatten = written (w.answer env job).1
  · obtain ⟨hlive, run', x, hr', hout, hiff⟩ := WorkerPool.hearOut_whole (o := o) hs.live hr hrun
      (answer_eq env w job) (hw.plainDevice job) hwhole
    rw [reported_of_outcome hs hnow hlive hr' hout, hiff, rough_answer_iff hw]
    simp [hwhole]
  · obtain ⟨hlive, run', err, hr', hout⟩ := WorkerPool.hearOut_part (o := o) hs.live hr hrun
      (answer_eq env w job) (hw.plainDevice job) hpart hwhole
    rw [reported_of_outcome hs hnow hlive hr' hout]
    exact iff_of_true rfl (.inl hwhole)

/-- A reply that comes as a whole and can be read is an answer, which the registry keeps. -/
theorem answered_of_whole {env : RouterEnv} {w : Worker} {job : InferenceJob} (hw : w.Started env)
    (hs : Waits o s c p r requestId) (hnow : s.registry.clock ≤ now)
    (hwhole : chunks.flatten = written (w.answer env job).1) (hclean : ¬ Unreadable env w job) :
    Answered (after o s c p r now chunks) c requestId now := by
  obtain ⟨run, hr, hrun⟩ := hs.run
  obtain ⟨hlive, run', x, hr', hout, hiff⟩ := WorkerPool.hearOut_whole (o := o) hs.live hr hrun
    (answer_eq env w job) (hw.plainDevice job) hwhole
  rw [rough_answer_iff hw] at hiff
  cases x with
  | resolved result => exact answered_of_outcome hs hnow hlive hr' hout
  | rejected err => exact absurd (hiff.mp rfl) hclean

section Example

/-- Cpu fails on every prompt. -/
def cpuFaults : RouterEnv :=
  { cpuEmits [] with
    execute := fun _ _ _ => runThroughEngine (some ⟨[], "", .runtimeError, "boom"⟩) }

/-- A buffered request and a stream of it. -/
def jobOf (stream : Bool) : InferenceJob where
  requestId := "a"
  prompt := "p"
  stream := stream

theorem started_cpuFaults : cpuWorker.Started cpuFaults :=
  ⟨⟨fun _ _ => .available, fun _ => rfl⟩, ["cpu"], 60000, 0, [.registerBackend "cpu"], rfl⟩

/-- A request whose run has written its frame. -/
def asking (stream : Bool) : List ServerAction :=
  [if stream then .stream 0 ⟨Json.units "a", Json.units "p", [], true⟩ 1
    else .post 0 ⟨Json.units "a", Json.units "p", [], false⟩ 1,
    .callExecute 0 ⟨100, fun _ => true⟩, .pool (.connect 0)]

def asked (stream : Bool) : Server :=
  (Machine.exec (serverStep WorkerPool.twoWorkers) (init WorkerPool.twoWorkers 20 none 0)
    (asking stream)).getD (init WorkerPool.twoWorkers 20 none 0)

theorem waits_asked (stream : Bool) :
    Waits WorkerPool.twoWorkers (asked stream) 0 0 0 (Json.units "a") := by
  constructor
  · exact ⟨20, none, 0, asking stream, by cases stream <;> rfl⟩
  · cases stream <;> rfl
  · cases stream <;> exact ⟨_, by rfl, by rfl, by rfl⟩
  · cases stream <;> exact ⟨_, by rfl⟩
  · cases stream <;> rfl
  · cases stream <;> exact ⟨_, by rfl, ⟨⟨by rfl, by rfl⟩, by rfl, by rfl, by rfl⟩, by rfl, by rfl⟩

end Example

end Server

end ServeInfer.ApiServer
