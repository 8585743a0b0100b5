import Mathlib.Logic.Relation
import ServeInfer.Clients.ChatClient
import ServeInfer.Lib.ForallMem

/-!
# What the steps of the chat client do

Every step is a sequence of a few moves, each of one run: it hears something, begins an attempt,
waits for the next one or is over. A move says what becomes of the runs' bookkeeping and of the
messages' texts.
-/

namespace ServeInfer.Clients

def Stage.isStreaming : Stage → Bool
  | .streaming => true
  | _ => false

/-- The parts of a client that its runs are booked in. -/
structure Books where
  runs : List Run
  runsRef : OrderedMap JsString ℕ
  cancelledRef : List JsString
  mountedRef : Bool
  runCount : ℕ

def Client.books (c : Client) : Books :=
  ⟨c.runs, c.runsRef, c.cancelledRef, c.mountedRef, c.runCount⟩

namespace Books

variable (b : Books)

def put (i : ℕ) (run : Run) : Books := { b with runs := b.runs.set i run }

/-- `runsRef` changes, and `setRunCount` follows it. -/
def recount (runsRef : OrderedMap JsString ℕ) : Books :=
  { b with
    runsRef := runsRef
    runCount := if b.mountedRef then runsRef.size else b.runCount }

@[simp] theorem recount_runsRef (runsRef : OrderedMap JsString ℕ) :
    (b.recount runsRef).runsRef = runsRef := rfl

@[simp] theorem recount_runs (runsRef : OrderedMap JsString ℕ) :
    (b.recount runsRef).runs = b.runs := rfl

def closeAll : Books :=
  { b with
    runs := b.runs.mapIdx fun i run =>
      if b.runsRef.entries.any fun entry => entry.2 = i then
        { run with stream := run.stream.close }
      else run
    runsRef := ∅ }

def cancel : Books :=
  { b.closeAll with
    cancelledRef := b.cancelledRef ++ b.runsRef.keys
    runCount := if b.mountedRef then 0 else b.runCount }

def unmount : Books := { b.closeAll with mountedRef := false }

end Books

/-- A message without what a finished answer says of its device. -/
def Message.plain (m : Message) : Message :=
  { m with
    device := none
    degraded := none
    degradedReason := none }

def Message.say (answerId : ℕ) (words : JsString) (m : Message) : Message :=
  if m.id = answerId then { m with text := m.text ++ words } else m

/-- The text that a call adds to the answer. -/
def Call.spoken (cfg : Settings) (call : Call) : JsString :=
  match call.name with
  | .onToken =>
      ((Client.truthyMember cfg call.payload "token").map (Json.toText cfg.numberText)).getD []
  | _ => []

def spoken (cfg : Settings) (calls : List Call) : JsString := calls.flatMap (Call.spoken cfg)

/-- The calls were shown: their tokens are added to the answer, and no message else is changed. -/
structure Tells (cfg : Settings) (c d : Client) (answerId : ℕ) (calls : List Call) : Prop where
  counter : c.counter ≤ d.counter
  messages : c.mountedRef = true → d.messages.map Message.plain =
    (c.messages.map Message.plain).map (Message.say answerId (spoken cfg calls))

/-- How the handlers may change the run they are called for. -/
def Settles (calls : List Call) (run run' : Run) : Prop :=
  run' = run ∨ run.stage.isStreaming = true ∧ (∃ call ∈ calls, call.name.isLast = true) ∧
    ∃ result, result ≠ .error none ∧ run' = { run with stage := .settled result }

/-- The run has made no attempt. -/
structure Run.Unmade (run : Run) : Prop where
  attempt : run.attempt = 0
  stage : run.stage = .settled (.error none)
  closed : run.stream.closed = true
  source : run.stream.source = false
  heard : run.heard = []
  repeated : run.repeated = []

/-- The two messages that a run begins with. -/
structure Exchange (d : Client) (run : Run) (question answer : Message) : Prop where
  asks : question.role = .user
  asked : question.text = run.text ∧ question.priority = some run.priority
  questionId : run.answerId < question.id ∧ question.id ≤ d.counter
  answers : answer.role = .assistant
  answerId : answer.id = run.answerId
  unsaid : answer.text = []
  requestId : question.requestId = run.requestId ∧ answer.requestId = run.requestId

/-- One move; `unique` tells whether no two runs are given one request id. -/
inductive Move (cfg : Settings) (unique : Prop) (c d : Client) : Prop
  | quiet (hbooks : d.books = c.books) (hcounter : c.counter ≤ d.counter)
      (hmessages : d.messages = c.messages ∨ d.messages = [])
  | hear (i : ℕ) (run run' : Run) (stream : ChatStream) (calls : List Call)
      (hrun : c.runs[i]? = some run) (hsource : run.stream.source = true)
      (hgrows : run.stream.Grows calls stream)
      (hsettles : Settles calls { run with stream := stream, heard := run.heard ++ calls } run')
      (hbooks : d.books = c.books.put i run') (htells : Tells cfg c d run.answerId calls)
  | attempt (i : ℕ) (run run' : Run) (failure : Option JsString)
      (hrun : c.runs[i]? = some run)
      (hstage : run.attempt = 0 ∧ run.stage = .settled (.error none) ∧
          (cfg.retry = true → cfg.policy.attempts ≠ 0) ∨
        ∃ err, run.stage = .waiting err)
      (hkept : run.requestId ∉ c.cancelledRef)
      (hsettles : Settles (startChatStream run.requestId (fun _ => true) failure).calls
        { run with
          attempt := run.attempt + 1
          stage := .streaming
          stream := startChatStream run.requestId (fun _ => true) failure
          heard := run.heard ++ (startChatStream run.requestId (fun _ => true) failure).calls }
        run')
      (hbooks : d.books = (c.books.put i run').recount (c.runsRef.set run.requestId i))
      (htells : Tells cfg c d run.answerId
        (startChatStream run.requestId (fun _ => true) failure).calls)
  | wait (i : ℕ) (run : Run) (err : AttemptError) (wait : ℚ) (hrun : c.runs[i]? = some run)
      (hstage : run.stage = .settled (.error (some err))) (hretry : cfg.retry = true)
      (hworth : isRetryable (some err.payload) = true) (hleft : run.attempt ≠ cfg.policy.attempts)
      (hkept : run.requestId ∉ c.cancelledRef) (hwait : wait ≤ cfg.policy.maxMs)
      (hbooks : d.books = c.books.put i
        { run with
          stage := .waiting err
          repeated := run.repeated ++ [(err, wait)] })
      (hcounter : c.counter ≤ d.counter) (hmessages : d.messages = c.messages)
  | finish (i : ℕ) (run : Run) (hrun : c.runs[i]? = some run)
      (hstage : run.stage.isStreaming = false)
      (hbooks : d.books =
        (c.books.put i { run with stage := .finished }).recount (c.runsRef.delete run.requestId))
      (hcounter : c.counter ≤ d.counter) (hmessages : d.messages = c.messages)
  | start (run : Run) (hnew : unique → run.requestId ∉ c.runs.map Run.requestId)
      (hunmade : run.Unmade)
      (hbooks : d.books =
        { c.books with
          runs := c.runs ++ [run]
          cancelledRef := c.cancelledRef.filter (· ≠ run.requestId) })
      (hcounter : c.counter < run.answerId ∧ run.answerId ≤ d.counter)
      (hmessages : c.mountedRef = true → ∃ question answer,
        d.messages = c.messages ++ [question, answer] ∧ Exchange d run question answer)
  | cancel (hbooks : d.books = c.books.cancel) (hcounter : c.counter ≤ d.counter)
      (hmessages : d.messages = c.messages)
  | unmount (hbooks : d.books = c.books.unmount) (hcounter : c.counter ≤ d.counter)
      (hmessages : d.messages = c.messages)

section

variable {cfg : Settings} {unique : Prop} {c d e : Client}

@[simp] theorem say_nil (answerId : ℕ) : Message.say answerId [] = id := by
  ext1 m
  unfold Message.say
  split
  · rw [List.append_nil, id]
  · rfl

theorem say_say (answerId : ℕ) (front back : JsString) :
    Message.say answerId back ∘ Message.say answerId front =
      Message.say answerId (front ++ back) := by
  ext1 m
  simp only [Function.comp_apply, Message.say]
  split
  · simp
  · rfl

theorem spoken_append (front back : List Call) :
    spoken cfg (front ++ back) = spoken cfg front ++ spoken cfg back :=
  List.flatMap_append

theorem Tells.silent {answerId : ℕ} {calls : List Call} (hcounter : c.counter ≤ d.counter)
    (hmessages : d.messages.map Message.plain = c.messages.map Message.plain)
    (hspoken : spoken cfg calls = []) : Tells cfg c d answerId calls where
  counter := hcounter
  messages := fun _ => by rw [hspoken, say_nil, List.map_id, hmessages]

theorem Tells.append {answerId : ℕ} {front back : List Call} (h : Tells cfg c d answerId front)
    (hmounted : d.mountedRef = c.mountedRef) (h' : Tells cfg d e answerId back) :
    Tells cfg c e answerId (front ++ back) where
  counter := h.counter.trans h'.counter
  messages := by
    intro hc
    rw [h'.messages (hmounted.trans hc), h.messages hc, List.map_map, say_say, spoken_append]

theorem Settles.requestId {calls : List Call} {run run' : Run} (h : Settles calls run run') :
    run'.requestId = run.requestId := by
  rcases h with rfl | ⟨-, -, result, -, rfl⟩
  · rfl
  · rfl

theorem Settles.append {front back : List Call} {run run' run'' : Run}
    (h : Settles front run run') (h' : Settles back run' run'') :
    Settles (front ++ back) run run'' := by
  rcases h with rfl | ⟨hstage, ⟨call, hcall, hlast⟩, result, hresult, rfl⟩
  · rcases h' with rfl | ⟨hstage, ⟨call, hcall, hlast⟩, hresult⟩
    · exact .inl rfl
    · exact .inr ⟨hstage, ⟨call, by simp [hcall], hlast⟩, hresult⟩
  · rcases h' with rfl | ⟨hstage', -⟩
    · exact .inr ⟨hstage, ⟨call, by simp [hcall], hlast⟩, result, hresult, rfl⟩
    · simp [Stage.isStreaming] at hstage'

namespace Client

@[simp] theorem pushEvent_books (type : String) (detail : Json) :
    (c.pushEvent type detail).books = c.books := by
  unfold pushEvent
  split
  · simp only [nextId, books]
  · rfl

@[simp] theorem pushEvent_runs (type : String) (detail : Json) :
    (c.pushEvent type detail).runs = c.runs :=
  congrArg Books.runs (pushEvent_books type detail)

@[simp] theorem pushEvent_messages (type : String) (detail : Json) :
    (c.pushEvent type detail).messages = c.messages := by
  unfold pushEvent
  split
  · rfl
  · rfl

theorem counter_le_pushEvent (type : String) (detail : Json) :
    c.counter ≤ (c.pushEvent type detail).counter := by
  unfold pushEvent nextId
  split
  · exact Nat.le_succ _
  · exact le_rfl

/-- What handlers may do that are called for the `i`-th run. -/
structure Handled (cfg : Settings) (i answerId : ℕ) (calls : List Call) (c d : Client) :
    Prop where
  books : ∃ f, d.books = { c.books with runs := c.runs.modify i f } ∧
    ∀ run, Settles calls run (f run)
  tells : Tells cfg c d answerId calls

variable {i answerId : ℕ} {calls : List Call}

theorem books_modify_id : { c.books with runs := c.runs.modify i id } = c.books := by
  simp only [List.modify_id, books]

theorem Handled.same (hbooks : d.books = c.books) (htells : Tells cfg c d answerId calls) :
    Handled cfg i answerId calls c d where
  books := ⟨id, by rw [books_modify_id, hbooks], fun _ => .inl rfl⟩
  tells := htells

/-- An attempt is settled by one of the last handlers. -/
theorem Handled.settle {call : Call} {result : Except (Option AttemptError) Json}
    (hbooks : d.books = c.books) (htells : Tells cfg c d answerId [call])
    (hlast : call.name.isLast = true) (hresult : result ≠ .error none) :
    Handled cfg i answerId [call] c (d.settle i result) where
  books := by
    have hruns : d.runs = c.runs := congrArg Books.runs hbooks
    have hsettled : (d.settle i result).books =
        { d.books with runs := (d.settle i result).runs } := rfl
    rw [hsettled, hbooks, Client.settle, editRun, hruns]
    refine ⟨_, rfl, ?_⟩
    intro run
    split
    · rename_i hstage
      exact .inr ⟨by rw [hstage]; rfl, ⟨call, by simp, hlast⟩, result, hresult, rfl⟩
    · exact .inl rfl
  tells := ⟨htells.counter, htells.messages⟩

theorem appendToken_books (token : Option Json) :
    (c.appendToken cfg answerId token).books = c.books := by
  unfold appendToken
  split
  · rfl
  · split
    · rfl
    · rfl

theorem handled_appendToken (payload : Json) :
    Handled cfg i answerId [⟨.onToken, payload⟩] c
      (c.appendToken cfg answerId (payload.get? "token")) := by
  apply Handled.same (appendToken_books _)
  constructor
  · unfold appendToken
    split
    · exact le_rfl
    · split
      · exact le_rfl
      · exact le_rfl
  · intro hmounted
    have hspoken : spoken cfg [⟨.onToken, payload⟩] =
        ((truthyMember cfg payload "token").map (Json.toText cfg.numberText)).getD [] := by
      simp [spoken, Call.spoken]
    rw [hspoken]
    unfold appendToken truthyMember
    cases (payload.get? "token").filter (Json.truthy cfg.numberText) with
    | none => simp
    | some token =>
        simp only [hmounted, if_true, List.map_map, Option.map_some, Option.getD_some]
        apply List.map_congr_left
        intro m _
        simp only [Function.comp_apply, Message.say]
        split
        · rw [if_pos (by simpa [Message.plain])]
          rfl
        · rw [if_neg (by simpa [Message.plain])]

theorem handled_handle (run : Run) (call : Call) :
    Handled cfg i run.answerId [call] c (c.handle cfg i run call) := by
  obtain ⟨name, payload⟩ := call
  have hnothing : name ≠ .onToken → spoken cfg [⟨name, payload⟩] = [] := by
    intro hname
    cases name <;> simp [spoken, Call.spoken] at hname ⊢
  have hquiet : ∀ {d : Client} {type : String} {detail : Json},
      d.books = c.books → d.counter = c.counter →
      d.messages.map Message.plain = c.messages.map Message.plain → name ≠ .onToken →
      (d.pushEvent type detail).books = c.books ∧
        Tells cfg c (d.pushEvent type detail) run.answerId [⟨name, payload⟩] := by
    intro d type detail hbooks hcounter hmessages hname
    refine ⟨(pushEvent_books _ _).trans hbooks, Tells.silent ?_ ?_ (hnothing hname)⟩
    · exact hcounter ▸ counter_le_pushEvent _ _
    · rw [pushEvent_messages, hmessages]
  unfold handle
  dsimp only
  split
  · exact Handled.same rfl (Tells.silent le_rfl rfl (hnothing (by simp)))
  · apply (hquiet _ _ _ _).elim Handled.same
    · split <;> rfl
    · split <;> rfl
    · split <;> rfl
    · simp
  · apply (hquiet _ _ _ _).elim Handled.same
    · split <;> rfl
    · split <;> rfl
    · split <;> rfl
    · simp
  · exact Handled.same rfl (Tells.silent le_rfl rfl
      (by simp [spoken, Call.spoken, truthyMember, Json.get?]))
  · exact handled_appendToken _
  · exact (hquiet rfl rfl rfl (by simp)).elim Handled.same
  · exact Handled.settle rfl (Tells.silent le_rfl rfl (hnothing (by simp))) rfl (by simp)
  · exact Handled.same rfl (Tells.silent le_rfl rfl (hnothing (by simp)))
  · apply (hquiet _ _ _ _).elim fun hbooks htells => Handled.settle hbooks htells rfl (by simp)
    · split <;> rfl
    · split <;> rfl
    · split
      · rw [List.map_map]
        apply List.map_congr_left
        intro m _
        rw [Function.comp_apply]
        split <;> rfl
      · rfl
    · simp
  · exact Handled.same rfl (Tells.silent le_rfl rfl (hnothing (by simp)))
  · exact Handled.settle rfl (Tells.silent le_rfl rfl (hnothing (by simp))) rfl (by simp)

theorem Handled.append {front back : List Call} (h : Handled cfg i answerId front c d)
    (h' : Handled cfg i answerId back d e) : Handled cfg i answerId (front ++ back) c e := by
  obtain ⟨f, hd, hf⟩ := h.books
  obtain ⟨g, he, hg⟩ := h'.books
  constructor
  · refine ⟨g ∘ f, ?_, fun run => (hf run).append (hg (f run))⟩
    have hruns : d.runs = c.runs.modify i f := congrArg Books.runs hd
    rw [he, hd, hruns, List.modify_modify_eq]
  · exact h.tells.append (congrArg Books.mountedRef hd) h'.tells

theorem handled_handleAll (run : Run) (calls : List Call) :
    Handled cfg i run.answerId calls c (c.handleAll cfg i run calls) := by
  induction calls generalizing c with
  | nil => exact Handled.same rfl (Tells.silent le_rfl rfl rfl)
  | cons call calls ih => exact (handled_handle run call).append ih

theorem modify_of_getElem? {α : Type*} {l : List α} {a : α} (h : l[i]? = some a) (f : α → α) :
    l.modify i f = l.set i (f a) := by
  apply List.ext_getElem?
  intro j
  rw [List.getElem?_modify, List.getElem?_set]
  by_cases hij : i = j
  · subst hij
    obtain ⟨hlt, rfl⟩ := List.getElem?_eq_some_iff.mp h
    simp [hlt]
  · simp [hij]

theorem map_set_of_eq {α β : Type*} {l : List α} {a b : α} (h : l[i]? = some a) {f : α → β}
    (hab : f b = f a) : (l.set i b).map f = l.map f := by
  apply List.ext_getElem?
  intro j
  rw [List.getElem?_map, List.getElem?_map, List.getElem?_set]
  by_cases hij : i = j
  · subst hij
    obtain ⟨hlt, rfl⟩ := List.getElem?_eq_some_iff.mp h
    simp [hlt, hab]
  · simp [hij]

variable (cfg) in
/-- A run is changed, and then the handlers are called for it. -/
theorem exists_of_edit {run : Run} (hrun : c.runs[i]? = some run) (g : Run → Run)
    (calls : List Call) :
    ∃ run', Settles calls (g run) run' ∧
      ((c.editRun i g).handleAll cfg i run calls).books = c.books.put i run' ∧
      Tells cfg c ((c.editRun i g).handleAll cfg i run calls) run.answerId calls := by
  have hhandled : Handled cfg i run.answerId calls (c.editRun i g)
      ((c.editRun i g).handleAll cfg i run calls) := handled_handleAll run calls
  obtain ⟨⟨f, hbooks, hf⟩, htells⟩ := hhandled
  refine ⟨f (g run), hf (g run), ?_, ⟨htells.counter, htells.messages⟩⟩
  have hruns : (c.editRun i g).runs.modify i f = c.runs.set i (f (g run)) := by
    rw [editRun, List.modify_modify_eq, modify_of_getElem? hrun]
    rfl
  rw [hbooks, hruns]
  rfl

theorem books_recount {b : Books} (h : c.books = b)
    (f : OrderedMap JsString ℕ → OrderedMap JsString ℕ) :
    ({ c with
      runsRef := f c.runsRef
      runCount := if c.mountedRef then (f c.runsRef).size else c.runCount } : Client).books =
      b.recount (f b.runsRef) := by
  rw [← h]
  rfl

variable (cfg) in
/-- What `runOnce` does with its run. -/
theorem exists_runOnce {run : Run} (hrun : c.runs[i]? = some run) (failure : Option JsString) :
    let stream := startChatStream run.requestId (fun _ => true) failure
    ∃ run', Settles stream.calls
        { run with
          attempt := run.attempt + 1
          stage := .streaming
          stream := stream
          heard := run.heard ++ stream.calls } run' ∧
      (c.runOnce cfg i failure).books =
        (c.books.put i run').recount (c.runsRef.set run.requestId i) ∧
      Tells cfg c (c.runOnce cfg i failure) run.answerId stream.calls := by
  intro stream
  obtain ⟨run', hsettles, hbooks, htells⟩ := exists_of_edit cfg hrun
    (fun run => { run with
      attempt := run.attempt + 1
      stage := .streaming
      stream := stream
      heard := run.heard ++ stream.calls })
    stream.calls
  refine ⟨run', hsettles, ?_⟩
  unfold runOnce
  rw [hrun]
  constructor
  · exact books_recount hbooks fun runsRef => runsRef.set run.requestId i
  · exact ⟨htells.counter, htells.messages⟩

theorem move_runOnce {run : Run} (hrun : c.runs[i]? = some run)
    (hstage : run.attempt = 0 ∧ run.stage = .settled (.error none) ∧
        (cfg.retry = true → cfg.policy.attempts ≠ 0) ∨
      ∃ err, run.stage = .waiting err)
    (hkept : run.requestId ∉ c.cancelledRef) (failure : Option JsString) :
    Move cfg unique c (c.runOnce cfg i failure) := by
  obtain ⟨run', hsettles, hbooks, htells⟩ := exists_runOnce cfg hrun failure
  exact Move.attempt i run run' failure hrun hstage hkept hsettles hbooks htells

theorem books_editRun (hbooks : d.books = c.books) {run : Run} (hrun : c.runs[i]? = some run)
    (f : Run → Run) : (d.editRun i f).books = c.books.put i (f run) := by
  have hruns : d.runs = c.runs := congrArg Books.runs hbooks
  have hedited : (d.editRun i f).books = { d.books with runs := d.runs.modify i f } := rfl
  rw [hedited, hbooks, hruns, modify_of_getElem? hrun]
  rfl

/-- A run that is not streaming is over. -/
theorem move_finish {run : Run} (hrun : c.runs[i]? = some run)
    (hstage : run.stage.isStreaming = false) (hbooks : d.books = c.books)
    (hcounter : c.counter ≤ d.counter) (hmessages : d.messages = c.messages) :
    Move cfg unique c ((d.editRun i fun run => { run with stage := .finished }).finishRun
      run.requestId) := by
  refine Move.finish i run hrun hstage ?_ ?_ ?_
  · exact books_recount (books_editRun hbooks hrun _) fun runsRef =>
      runsRef.delete run.requestId
  · exact hcounter
  · exact hmessages

theorem move_failRun {run : Run} (hrun : c.runs[i]? = some run)
    (hstage : run.stage.isStreaming = false) (err : Option AttemptError) :
    Move cfg unique c (c.failRun cfg i run err) := by
  unfold failRun
  apply move_finish hrun hstage
  · rw [pushEvent_books]
    split <;> rfl
  · refine le_trans ?_ (counter_le_pushEvent _ _)
    split <;> rfl
  · rw [pushEvent_messages]
    split <;> rfl

theorem move_completeRun {run : Run} (hrun : c.runs[i]? = some run)
    (hstage : run.stage.isStreaming = false) : Move cfg unique c (c.completeRun i run) := by
  unfold completeRun
  apply move_finish hrun hstage
  · split <;> rfl
  · split <;> rfl
  · split <;> rfl

theorem move_retryRun {run : Run} {err : AttemptError} (hrun : c.runs[i]? = some run)
    (hstage : run.stage = .settled (.error (some err))) (hretry : cfg.retry = true) (random : ℚ) :
    Move cfg unique c (c.retryRun cfg i run err random) := by
  unfold retryRun
  split
  · exact move_failRun hrun (by rw [hstage]; rfl) _
  · rename_i hgo
    simp only [not_or, Bool.not_eq_false, List.contains_iff_mem] at hgo
    obtain ⟨hworth, hleft, hkept⟩ := hgo
    apply Move.wait i run err (waitMs cfg run err random) hrun hstage hretry hworth hleft hkept
    · exact backoffMs_le _ _ _ _
    · exact books_editRun (pushEvent_books _ _) hrun _
    · exact counter_le_pushEvent _ _
    · exact pushEvent_messages _ _

theorem move_repeatRun {run : Run} {err : AttemptError} (hrun : c.runs[i]? = some run)
    (hstage : run.stage = .waiting err) (failure : Option JsString) :
    Move cfg unique c (c.repeatRun cfg i run err failure) := by
  unfold repeatRun
  split
  · exact move_failRun hrun (by rw [hstage]; rfl) _
  · rename_i hkept
    rw [List.contains_iff_mem] at hkept
    exact move_runOnce hrun (.inr ⟨err, hstage⟩) hkept failure

theorem books_addRun {b : Books} (h : c.books = b) (run : Run) :
    ({ c with runs := c.runs ++ [run] } : Client).books = { b with runs := b.runs ++ [run] } := by
  rw [← h]
  rfl

variable (cfg) in
theorem move_beginRun (text : JsString) (priority : String) {requestId : JsString}
    (hnew : unique → requestId ∉ c.runs.map Run.requestId) :
    Move cfg unique c (c.beginRun text priority requestId) ∧
      ∃ run, (c.beginRun text priority requestId).runs = c.runs ++ [run] ∧
        run.requestId = requestId ∧ run.Unmade ∧
        (c.beginRun text priority requestId).cancelledRef =
          c.cancelledRef.filter (· ≠ requestId) := by
  let run : Run :=
    { requestId := requestId
      answerId := c.counter + 1
      text := text
      priority := priority
      stream :=
        { requestId := requestId
          source := false
          closed := true } }
  have hunmade : run.Unmade := ⟨rfl, rfl, rfl, rfl, rfl, rfl⟩
  have hbooks : (c.beginRun text priority requestId).books =
      { c.books with
        runs := c.runs ++ [run]
        cancelledRef := c.cancelledRef.filter (· ≠ requestId) } := by
    unfold beginRun
    apply books_addRun (b := { c.books with cancelledRef := c.cancelledRef.filter (· ≠ requestId) })
    rw [pushEvent_books]
    split
    · rfl
    · rfl
  refine ⟨?_, run, congrArg Books.runs hbooks, rfl, hunmade, congrArg Books.cancelledRef hbooks⟩
  refine Move.start run hnew hunmade hbooks ⟨Nat.lt_succ_self _, ?_⟩ ?_
  · unfold beginRun
    refine le_trans ?_ (counter_le_pushEvent _ _)
    split
    · exact Nat.le_succ _
    · exact le_rfl
  · intro hmounted
    refine ⟨
      { id := c.counter + 2, role := .user, text := text, requestId := requestId,
        priority := some priority },
      { id := c.counter + 1, role := .assistant, text := [], requestId := requestId }, ?_,
      ⟨rfl, ⟨rfl, rfl⟩, ⟨Nat.lt_succ_self _, ?_⟩, rfl, rfl, rfl, ⟨rfl, rfl⟩⟩⟩
    · unfold beginRun
      refine (pushEvent_messages _ _).trans ?_
      split
      · rfl
      · contradiction
    · unfold beginRun
      refine le_trans ?_ (counter_le_pushEvent _ _)
      split
      · exact le_rfl
      · contradiction

theorem requestIds_runOnce {run : Run} (hrun : c.runs[i]? = some run)
    (failure : Option JsString) :
    (c.runOnce cfg i failure).runs.map Run.requestId = c.runs.map Run.requestId := by
  obtain ⟨run', hsettles, hbooks, -⟩ := exists_runOnce cfg hrun failure
  have hruns : (c.runOnce cfg i failure).runs = c.runs.set i run' := congrArg Books.runs hbooks
  rw [hruns, map_set_of_eq hrun hsettles.requestId]

variable (cfg) in
/-- A run is made, and then its first attempt, if there is to be one. -/
theorem moves_startRun (text : JsString) (priority : String) {requestId : JsString}
    (hnew : unique → requestId ∉ c.runs.map Run.requestId) (failure : Option JsString) :
    Relation.ReflTransGen (Move cfg unique) c (c.startRun cfg text priority requestId failure) ∧
      (c.startRun cfg text priority requestId failure).runs.map Run.requestId =
        c.runs.map Run.requestId ++ [requestId] := by
  obtain ⟨hmove, run, hruns, hid, hunmade, hcancelled⟩ :=
    move_beginRun cfg text priority hnew
  have hids : (c.beginRun text priority requestId).runs.map Run.requestId =
      c.runs.map Run.requestId ++ [requestId] := by
    rw [hruns, List.map_append, List.map_singleton, hid]
  unfold startRun
  dsimp only
  split
  · exact ⟨.single hmove, hids⟩
  · rename_i hallowed
    have hrun : (c.beginRun text priority requestId).runs[c.runs.length]? = some run := by
      rw [hruns, List.getElem?_concat_length]
    have hattempt : Move cfg unique _ _ := move_runOnce hrun
      (.inl ⟨hunmade.attempt, hunmade.stage, fun hretry hnone => hallowed ⟨hretry, hnone⟩⟩)
      (by rw [hcancelled, hid]; simp) failure
    exact ⟨.tail (.single hmove) hattempt, (requestIds_runOnce hrun _).trans hids⟩

theorem cancel_books : c.cancel.books = c.books.cancel := by
  unfold cancel Books.cancel
  rw [pushEvent_books]
  split
  · rename_i hmounted
    rw [if_pos (show c.books.mountedRef = true from hmounted)]
    rfl
  · rename_i hmounted
    rw [if_neg (show ¬ c.books.mountedRef = true from hmounted)]
    rfl

theorem move_cancel : Move cfg unique c c.cancel := by
  apply Move.cancel cancel_books
  · unfold cancel
    refine le_trans ?_ (counter_le_pushEvent _ _)
    split <;> rfl
  · unfold cancel
    rw [pushEvent_messages]
    split <;> rfl

theorem move_unmount : Move cfg unique c c.unmount :=
  Move.unmount rfl le_rfl rfl

theorem quiet_pushEvent (type : String) (detail : Json) : Move cfg unique c (c.pushEvent type detail) :=
  Move.quiet (pushEvent_books _ _) (counter_le_pushEvent _ _) (.inl (pushEvent_messages _ _))

theorem moves_send {prompt : JsString} {priority : Option String} {requestId : JsString}
    (hnew : unique → requestId ∉ c.runs.map Run.requestId) (failure : Option JsString) :
    Relation.ReflTransGen (Move cfg unique) c (c.send cfg prompt priority requestId failure) := by
  unfold send
  dsimp only
  split
  · exact .refl
  · have hreset : Move cfg unique c { c with tokenCount := 0 } := Move.quiet rfl le_rfl (.inl rfl)
    have hstarted := moves_startRun cfg (c := { c with tokenCount := 0 }) (Json.trim prompt)
      ((priority.filter (· ≠ "")).getD cfg.priority) hnew failure
    exact .head hreset hstarted.1

theorem moves_starts (text : JsString) (priority : String)
    {started : List (JsString × Option JsString)} (hids : unique → (started.map Prod.fst).Nodup)
    (hnew : unique → ∀ id ∈ started.map Prod.fst, id ∉ c.runs.map Run.requestId) :
    Relation.ReflTransGen (Move cfg unique) c
      (started.foldl (fun c run => c.startRun cfg text priority run.1 run.2) c) := by
  induction started generalizing c with
  | nil => exact .refl
  | cons run started ih =>
      obtain ⟨hmoves, hruns⟩ := moves_startRun cfg (c := c) text priority
        (fun hu => hnew hu run.1 List.mem_cons_self) run.2
      apply hmoves.trans
      apply ih
      · exact fun hu => (List.nodup_cons.mp (hids hu)).2
      · intro hu id hid
        rw [hruns, List.mem_append, List.mem_singleton, not_or]
        refine ⟨hnew hu id (List.mem_cons_of_mem _ hid), ?_⟩
        rintro rfl
        exact (List.nodup_cons.mp (hids hu)).1 hid

theorem moves_burst {prompt : JsString} {priority : String}
    {started : List (JsString × Option JsString)}
    (hids : unique → (started.map Prod.fst).Nodup)
    (hnew : unique → ∀ id ∈ started.map Prod.fst, id ∉ c.runs.map Run.requestId) :
    Relation.ReflTransGen (Move cfg unique) c (c.burst cfg prompt priority started) := by
  unfold burst
  dsimp only
  split
  · exact .refl
  · have hreset : Move cfg unique c { c with tokenCount := 0 } := Move.quiet rfl le_rfl (.inl rfl)
    refine .head hreset (.head (quiet_pushEvent _ _) (moves_starts _ _ hids ?_))
    rw [pushEvent_runs]
    exact hnew

theorem quiet_clear : Move cfg unique c c.clear := by
  unfold clear
  dsimp only
  split
  · exact Move.quiet rfl le_rfl (.inr rfl)
  · exact Move.quiet rfl le_rfl (.inr rfl)

end Client

/-- The ids of the requests that an action starts. -/
def Action.started : Action → List JsString
  | .send _ _ requestId _ => [requestId]
  | .burst _ _ started => started.map Prod.fst
  | _ => []

/-- The requests that an action starts have ids of their own. -/
def Fresh (c : Client) (a : Action) : Prop :=
  a.started.Nodup ∧ ∀ id ∈ a.started, (c.runs.map Run.requestId).contains id = false

instance : DecidableRel Fresh := fun _ _ => inferInstanceAs (Decidable (_ ∧ _))

open Client in
/-- A step is a sequence of moves. -/
theorem moves_of_step {a : Action} (hfresh : unique → Fresh c a) (h : step cfg c a = some d) :
    Relation.ReflTransGen (Move cfg unique) c d := by
  cases a with
  | send prompt priority requestId failure =>
      obtain ⟨-, ⟨⟩⟩ := Option.ite_none_right_eq_some.mp h
      have hnew : unique → requestId ∉ c.runs.map Run.requestId := by
        intro hu
        simpa using (hfresh hu).2 requestId (List.mem_singleton_self _)
      exact moves_send hnew failure
  | burst prompt priority started =>
      obtain ⟨-, ⟨⟩⟩ := Option.ite_none_right_eq_some.mp h
      refine moves_burst (fun hu => (hfresh hu).1) ?_
      intro hu id hid
      simpa using (hfresh hu).2 id hid
  | cancel =>
      obtain ⟨-, ⟨⟩⟩ := Option.ite_none_right_eq_some.mp h
      exact .single move_cancel
  | acknowledged requestId ok =>
      obtain ⟨-, ⟨⟩⟩ := Option.ite_none_right_eq_some.mp h
      exact .single (quiet_pushEvent _ _)
  | clear =>
      obtain ⟨-, ⟨⟩⟩ := Option.ite_none_right_eq_some.mp h
      exact .single quiet_clear
  | health ok =>
      obtain ⟨-, ⟨⟩⟩ := Option.ite_none_right_eq_some.mp h
      apply Relation.ReflTransGen.single
      apply Move.quiet
      · split <;> rfl
      · split <;> exact le_rfl
      · split <;> exact .inl rfl
  | unmount =>
      obtain ⟨-, ⟨⟩⟩ := Option.ite_none_right_eq_some.mp h
      exact .single move_unmount
  | event i e =>
      cases hrun : c.runs[i]? with
      | none => simp [step, hrun] at h
      | some run =>
          simp only [step, hrun] at h
          obtain ⟨⟨-, hsource⟩, hd⟩ := Option.ite_none_right_eq_some.mp h
          obtain ⟨calls, hgrows⟩ := run.stream.exists_grows_receive e
          have hdrop : (run.stream.receive e).calls.drop run.stream.calls.length = calls := by
            rw [hgrows.calls, List.drop_left]
          rw [hdrop] at hd
          obtain rfl := Option.some.inj hd
          obtain ⟨run', hsettles, hbooks, htells⟩ := exists_of_edit cfg hrun
            (fun heard => { heard with
              stream := run.stream.receive e
              heard := heard.heard ++ calls })
            calls
          exact .single (Move.hear i run run' _ calls hrun hsource hgrows hsettles hbooks htells)
  | react i random =>
      cases hrun : c.runs[i]? with
      | none => simp [step, hrun] at h
      | some run =>
          simp only [step, hrun] at h
          split at h
          · rename_i hstage
            obtain rfl := Option.some.inj h
            exact .single (move_completeRun hrun (by rw [hstage]; rfl))
          · rename_i hstage
            obtain rfl := Option.some.inj h
            exact .single (move_failRun hrun (by rw [hstage]; rfl) none)
          · rename_i err hstage
            obtain rfl := Option.some.inj h
            apply Relation.ReflTransGen.single
            split
            · rename_i hretry
              exact move_retryRun hrun hstage hretry random
            · exact move_failRun hrun (by rw [hstage]; rfl) _
          · contradiction
  | timer i failure =>
      cases hrun : c.runs[i]? with
      | none => simp [step, hrun] at h
      | some run =>
          simp only [step, hrun] at h
          split at h
          · rename_i err hstage
            obtain ⟨-, ⟨⟩⟩ := Option.ite_none_right_eq_some.mp h
            exact .single (move_repeatRun hrun hstage failure)
          · contradiction

end

end ServeInfer.Clients
