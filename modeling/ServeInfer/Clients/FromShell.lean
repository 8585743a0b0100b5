import ServeInfer.Clients.ChatStream
import ServeInfer.Lib.JsonNumber
import ServeInfer.ShellApp.FrameOrder

/-!
# From the shell to the client's handlers

The response of a stream reaches the client event by event, as far as the connection lasts, and
then the source reports an error of its own. Wherever the connection breaks, the client's
handlers are called in one order, and the last call is the only one that ends the request.
-/

namespace ServeInfer.Clients

open ShellApp (Frame Place Shell)

section

variable (num : ℚ → JsString) (toNumber : Json → Json)

def textJson (s : String) : Json := .str (Utf8.utf16 s.toList)

def numberJson (num : ℚ → JsString) (q : ℚ) : Json := .num (num q)

/-- A member that `JSON.stringify` writes only where it has a value. -/
def member (key : String) (v : Option Json) : List (String × Json) :=
  (v.map fun v => (key, v)).toList

/-- What `sendSse` is given for a frame: the event's name and its payload. Numbers are written by
`num`, and `toNumber` is the conversion of `retryAfterSeconds`. -/
def frameEvent : Frame → Option (String × Json)
  | .queued requestId position estimatedWaitMs =>
      some ("queued", object
        [("requestId", textJson requestId), ("position", numberJson num position),
          ("estimatedWaitMs", numberJson num estimatedWaitMs)])
  | .started requestId => some ("started", object [("requestId", textJson requestId)])
  | .cancelled requestId reason =>
      some ("cancelled", object
        [("requestId", textJson requestId), ("reason", textJson reason)])
  | .timeout requestId phase waitedMs ranMs retryable =>
      some ("timeout", object
        ([("requestId", textJson requestId), ("phase", textJson phase)] ++
          member "waitedMs" (waitedMs.map fun ms => numberJson num ms) ++
          member "ranMs" (ranMs.map fun ms => numberJson num ms) ++
          [("retryable", .bool retryable)]))
  | .token payload => some ("token", payload)
  | .done payload => some ("done", payload)
  | .error payload =>
      some ("error", object
        ([("error", payload.error), ("message", textJson payload.message),
            ("requestId", textJson payload.requestId)] ++
          member "retryAfterSeconds" (payload.retryAfterSeconds.map toNumber) ++
          member "retryable" (payload.retryable.map Json.bool)))
  | .ends => none

variable (numberText : JsString → JsString)

/-- A frame as the event source hands it on. -/
def messageOf (frame : Frame) : Option MessageEvent :=
  (frameEvent num toNumber frame).map fun e =>
    { type := e.1, data := some (e.2.stringify numberText) }

/-- The error event that the source makes when its connection is gone. -/
def dropped : MessageEvent where
  type := "error"

/-- The client that has received these frames, and then lost its connection. -/
def received (requestId : JsString) (frames : List Frame) : ChatStream :=
  (frames.filterMap (messageOf num toNumber numberText) ++ [dropped]).foldl ChatStream.receive
    (startChatStream requestId (fun _ => true) none)

end

/-- What a client is to be told of a response that breaks off. -/
def outcome (num : ℚ → JsString) (toNumber : Json → Json) (requestId : JsString) :
    List Frame → List Call
  | [] => [⟨.onError, clientError "connection_lost"
      (Json.units "The connection to the shell stream dropped") requestId true⟩]
  | frame :: frames =>
      let rest := outcome num toNumber requestId frames
      match frame, frameEvent num toNumber frame with
      | .queued .., some e => ⟨.onQueued, e.2⟩ :: rest
      | .started _, some e => ⟨.onStarted, e.2⟩ :: rest
      | .token _, some e => ⟨.onToken, e.2⟩ :: rest
      | .timeout .., some e => ⟨.onTimeout, e.2⟩ :: rest
      | .cancelled .., some e => [⟨.onCancelled, e.2⟩]
      | .done _, some e => [⟨.onDone, e.2⟩]
      | .error _, some e => [⟨.onError, withRequestId requestId e.2⟩]
      | _, _ => rest

/-- How far a client's calls have come. -/
inductive Shown
  | idle
  | queued
  | started
  | late
  | over
  deriving DecidableEq, Repr

def Shown.next : Shown → Callback → Option Shown
  | .over, _ => none
  | _, .onCancelled => some .over
  | _, .onDone => some .over
  | _, .onError => some .over
  | .idle, .onQueued => some .queued
  | .queued, .onStarted => some .started
  | .queued, .onTimeout => some .late
  | .started, .onToken => some .started
  | .started, .onTimeout => some .late
  | _, _ => none

variable {num : ℚ → JsString} {toNumber : Json → Json} {numberText : JsString → JsString}

/-- What a payload is read back as. -/
theorem parseEventData_stringify {v : Json} (hv : v.IsValue numberText) :
    parseEventData (some (v.stringify numberText)) = some v := by
  obtain ⟨u, more, htext, -⟩ := Json.starts_stringify hv
  have hparse := Json.parse_stringify hv
  rw [htext] at hparse ⊢
  exact hparse

/-- The payloads are values whose numbers are named as they are written. -/
def Readable (num : ℚ → JsString) (toNumber : Json → Json) (numberText : JsString → JsString)
    (frames : List Frame) : Prop :=
  ∀ frame ∈ frames, ∀ e ∈ frameEvent num toNumber frame, e.2.IsValue numberText

namespace ChatStream

variable {s : ChatStream}

theorem foldl_receive_of_closed (hclosed : s.closed = true) (l : List MessageEvent) :
    l.foldl receive s = s := by
  induction l with
  | nil => rfl
  | cons e l ih =>
      have hsame : s.receive e = s := if_pos hclosed
      rw [List.foldl_cons, hsame, ih]

theorem finish_of_open (hopen : s.closed = false) (hall : s.handlers = fun _ => true)
    (name : Callback) (payload : Json) :
    s.finish name payload =
      { s with closed := true, source := false, calls := s.calls ++ [⟨name, payload⟩] } := by
  simp [finish, close, emit, hopen, hall]

theorem emit_of_all (hall : s.handlers = fun _ => true) (name : Callback) (payload : Json) :
    s.emit name payload = { s with calls := s.calls ++ [⟨name, payload⟩] } := by
  simp [emit, hall]

theorem receive_progress (hopen : s.closed = false) {type : String} {data : Option JsString}
    {name : Callback} {v : Json} (hname : progressEvents.lookup type = some name)
    (hdata : parseEventData data = some v) :
    s.receive ⟨type, data⟩ = s.emit name v := by
  simp [receive, hopen, hname, hdata]

theorem receive_terminal (hopen : s.closed = false) {type : String} {data : Option JsString}
    {name : Callback} {v : Json} (hnone : progressEvents.lookup type = none)
    (hname : terminalEvents.lookup type = some name) (hdata : parseEventData data = some v) :
    s.receive ⟨type, data⟩ = s.finish name v := by
  simp [receive, hopen, hnone, hname, hdata]

theorem receive_error (hopen : s.closed = false) {text : JsString} {v : Json}
    (hdata : parseEventData (some text) = some v) :
    s.receive ⟨"error", some text⟩ = s.finish .onError (withRequestId s.requestId v) := by
  have hnone : progressEvents.lookup "error" = none := by decide
  have hnone' : terminalEvents.lookup "error" = none := by decide
  simp [receive, hopen, hnone, hnone', hdata]

theorem receive_dropped (hopen : s.closed = false) :
    s.receive dropped = s.finish .onError (clientError "connection_lost"
      (Json.units "The connection to the shell stream dropped") s.requestId true) := by
  have hnone : progressEvents.lookup "error" = none := by decide
  have hnone' : terminalEvents.lookup "error" = none := by decide
  simp [receive, dropped, hopen, hnone, hnone']

end ChatStream

/-- A frame that goes on calls its handler, one that ends closes the stream first. -/
theorem foldl_receive {s : ChatStream} (hopen : s.closed = false)
    (hall : s.handlers = fun _ => true) {frames : List Frame}
    (hread : Readable num toNumber numberText frames) :
    let t := (frames.filterMap (messageOf num toNumber numberText) ++ [dropped]).foldl
      ChatStream.receive s
    t.closed = true ∧ t.calls = s.calls ++ outcome num toNumber s.requestId frames := by
  induction frames generalizing s with
  | nil =>
      simp [s.receive_dropped hopen, s.finish_of_open hopen hall, outcome]
  | cons frame frames ih =>
      have hrest : Readable num toNumber numberText frames :=
        fun f hf => hread f (List.mem_cons_of_mem _ hf)
      have hfirst := hread frame List.mem_cons_self
      -- A progress event leaves the stream open for the rest of the frames.
      have hgo : ∀ {type : String} {v : Json} {name : Callback},
          frameEvent num toNumber frame = some (type, v) →
          progressEvents.lookup type = some name →
          outcome num toNumber s.requestId (frame :: frames) =
            ⟨name, v⟩ :: outcome num toNumber s.requestId frames →
          let t := ((frame :: frames).filterMap (messageOf num toNumber numberText) ++
            [dropped]).foldl ChatStream.receive s
          t.closed = true ∧
            t.calls = s.calls ++ outcome num toNumber s.requestId (frame :: frames) := by
        intro type v name hevent hname hout
        have hparse := parseEventData_stringify (hfirst _ hevent)
        have hmsg : messageOf num toNumber numberText frame =
            some ⟨type, some (v.stringify numberText)⟩ := by
          simp [messageOf, hevent]
        rw [List.filterMap_cons_some hmsg, List.cons_append, List.foldl_cons,
          s.receive_progress hopen hname hparse, s.emit_of_all hall, hout]
        have hnext := ih (s := { s with calls := s.calls ++ [⟨name, v⟩] }) hopen hall hrest
        simpa using hnext
      -- Another event closes it, and the rest is not heard.
      have hstop : ∀ {type : String} {v : Json} {name : Callback} {payload : Json},
          frameEvent num toNumber frame = some (type, v) →
          s.receive ⟨type, some (v.stringify numberText)⟩ = s.finish name payload →
          outcome num toNumber s.requestId (frame :: frames) = [⟨name, payload⟩] →
          let t := ((frame :: frames).filterMap (messageOf num toNumber numberText) ++
            [dropped]).foldl ChatStream.receive s
          t.closed = true ∧
            t.calls = s.calls ++ outcome num toNumber s.requestId (frame :: frames) := by
        intro type v name payload hevent hrecv hout
        have hmsg : messageOf num toNumber numberText frame =
            some ⟨type, some (v.stringify numberText)⟩ := by
          simp [messageOf, hevent]
        rw [List.filterMap_cons_some hmsg, List.cons_append, List.foldl_cons, hrecv,
          s.finish_of_open hopen hall, ChatStream.foldl_receive_of_closed rfl, hout]
        exact ⟨rfl, rfl⟩
      cases frame with
      | queued requestId position estimatedWaitMs => exact hgo rfl (by decide) rfl
      | started requestId => exact hgo rfl (by decide) rfl
      | token payload => exact hgo rfl (by decide) rfl
      | timeout requestId phase waitedMs ranMs retryable => exact hgo rfl (by decide) rfl
      | cancelled requestId reason =>
          exact hstop rfl (s.receive_terminal hopen (by decide) (by decide)
            (parseEventData_stringify (hfirst _ rfl))) rfl
      | done payload =>
          exact hstop rfl (s.receive_terminal hopen (by decide) (by decide)
            (parseEventData_stringify (hfirst _ rfl))) rfl
      | error payload =>
          exact hstop rfl (s.receive_error hopen (parseEventData_stringify (hfirst _ rfl))) rfl
      | ends => exact ih hopen hall hrest

/-- Where a client stands whose stream has come to this place without an end. -/
def shownAt : Place → Option Shown
  | .opened => some .idle
  | .waiting => some .queued
  | .running => some .started
  | .closed => some .started
  | .dropped => some .late
  | .overdue => some .late
  | .failed => none

/-- What a client is told of an ordered response is in order, and ends. -/
theorem exec_shown (requestId : JsString) {frames : List Frame} {place place' : Place}
    {shown : Shown} (hread : Machine.exec Place.next place frames = some place')
    (hshown : shownAt place = some shown) :
    Machine.exec Shown.next shown ((outcome num toNumber requestId frames).map Call.name) =
      some .over := by
  induction frames generalizing place shown with
  | nil => cases place <;> cases hshown <;> rfl
  | cons frame frames ih =>
      rw [Machine.exec_cons] at hread
      obtain ⟨mid, hmid, hrest⟩ := Option.bind_eq_some_iff.mp hread
      cases frame with
      | queued requestId position estimatedWaitMs =>
          cases place <;> cases hmid
          cases hshown
          exact ih hrest rfl
      | started requestId =>
          cases place <;> cases hmid
          cases hshown
          exact ih hrest rfl
      | token payload =>
          cases place <;> cases hmid
          cases hshown
          exact ih hrest rfl
      | timeout requestId phase waitedMs ranMs retryable =>
          have hcases : (place = .waiting ∧ mid = .dropped) ∨ (place = .running ∧ mid = .overdue) := by
            cases place <;> simp [Place.next] at hmid
            · exact .inl ⟨rfl, hmid.2.symm⟩
            · exact .inr ⟨rfl, hmid.2.symm⟩
          rcases hcases with ⟨rfl, rfl⟩ | ⟨rfl, rfl⟩
          · cases hshown
            exact ih hrest rfl
          · cases hshown
            exact ih hrest rfl
      | cancelled requestId reason =>
          cases place <;> cases hmid
          cases hshown
          rfl
      | done payload =>
          cases place <;> cases hmid
          cases hshown
          rfl
      | error payload => cases place <;> cases hmid <;> cases hshown <;> rfl
      | ends =>
          cases place <;> cases hmid
          · cases hshown
            exact ih hrest rfl
          · cases hshown

variable {α : Type} {o : Scheduler.Options} {clock : ℕ → ℤ}

/-- However far a response has come when its connection breaks, the client is told all of it up to
its first ending event, and is told an ending once and last: `onDone`, `onCancelled` or the
`onError` of the shell if that event was received, and `connection_lost` if none was. Its calls are
in order: queued, started, tokens, a timeout before the error that reports it. -/
theorem client_told_in_order {as : List (ShellApp.Action α)} {s : Shell α}
    (hg : Machine.Guarded (ShellApp.step numberText o clock) ShellApp.Proper (ShellApp.start o) as)
    (h : Machine.exec (ShellApp.step numberText o clock) (ShellApp.start o) as = some s)
    {st : ShellApp.Stream α} (hst : st ∈ s.streams) {frames : List Frame}
    (hpre : frames <+: st.response) (hread : Readable num toNumber numberText frames)
    (requestId : JsString) :
    (received num toNumber numberText requestId frames).closed = true ∧
      (received num toNumber numberText requestId frames).calls =
        outcome num toNumber requestId frames ∧
      Machine.exec Shown.next .idle
        ((received num toNumber numberText requestId frames).calls.map Call.name) =
          some .over := by
  obtain ⟨place, hplace, -⟩ := ((ShellApp.kept_of_run hg h).fits st hst).order
  obtain ⟨place', hplace'⟩ := Machine.exec_prefix hpre hplace
  obtain ⟨hclosed, hcalls⟩ := foldl_receive (s := startChatStream requestId (fun _ => true) none)
    rfl rfl hread
  have htold : (received num toNumber numberText requestId frames).calls =
      outcome num toNumber requestId frames := hcalls
  refine ⟨hclosed, htold, ?_⟩
  rw [htold]
  exact exec_shown requestId hplace' rfl

/-- A frame that the route writes of the scheduler's start. -/
def isStart : Frame → Bool
  | .queued .. => true
  | .started _ => true
  | _ => false

theorem readable_of_isStart {frames : List Frame} (hall : ∀ frame ∈ frames, isStart frame = true)
    (hnum : ∀ q, Json.IsNumber (num q) ∧ numberText (num q) = num q) :
    Readable num toNumber numberText frames := by
  intro frame hframe e he
  cases frame with
  | queued requestId position estimatedWaitMs =>
      cases he
      exact ⟨trivial, hnum _, hnum _, trivial⟩
  | started requestId =>
      cases he
      exact ⟨trivial, trivial⟩
  | _ => exact absurd (hall _ hframe) (by simp [isStart])

theorem client_told_in_order_started :
    ∃ s, Machine.exec (ShellApp.step id {} fun _ => 0) (ShellApp.start {} : Shell ℕ)
        [.stream { prompt := some (Json.units "hi") } "r"] = some s ∧
      ∀ st ∈ s.streams,
        (received (fun q => Json.decimalUnits ⌊q⌋) id id (Json.units "r") st.response).closed =
          true := by
  obtain ⟨s, hs⟩ := Option.isSome_iff_exists.mp
    (show (Machine.exec (ShellApp.step id {} fun _ => 0) (ShellApp.start {} : Shell ℕ)
      [.stream { prompt := some (Json.units "hi") } "r"]).isSome = true by decide +kernel)
  have hg : Machine.Guarded (ShellApp.step id {} fun _ => 0) ShellApp.Proper
      (ShellApp.start {} : Shell ℕ) [.stream { prompt := some (Json.units "hi") } "r"] := by
    decide +kernel
  have hstart : ∀ t, Machine.exec (ShellApp.step id {} fun _ => 0)
      (ShellApp.start {} : Shell ℕ) [.stream { prompt := some (Json.units "hi") } "r"] = some t →
      ∀ st ∈ t.streams, ∀ frame ∈ st.response, isStart frame = true := by
    decide +kernel
  refine ⟨s, hs, fun st hst => ?_⟩
  exact (client_told_in_order hg hs hst (List.prefix_refl _)
    (readable_of_isStart (hstart s hs st hst) fun q => ⟨Json.isNumber_decimalUnits _, rfl⟩)
    (Json.units "r")).1

end ServeInfer.Clients
