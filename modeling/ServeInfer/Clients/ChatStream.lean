import ServeInfer.Lib.Utf8Text
import ServeInfer.Lib.Json

/-!
# A client's stream

`startChatStream` opens an event source and turns its events into calls of the handlers. The
stream is closed before its last handler is called, and a closed stream calls none.
-/

namespace ServeInfer.Clients

/-- A JavaScript string. -/
abbrev JsString := List Utf8.CodeUnit

/-- The members of `handlers`. -/
inductive Callback
  | onQueued
  | onStarted
  | onToken
  | onTimeout
  | onCancelled
  | onDone
  | onError
  deriving DecidableEq, Repr

/-- `PROGRESS_EVENTS`. -/
def progressEvents : List (String × Callback) :=
  [("queued", .onQueued), ("started", .onStarted), ("token", .onToken), ("timeout", .onTimeout)]

/-- `TERMINAL_EVENTS`. -/
def terminalEvents : List (String × Callback) :=
  [("cancelled", .onCancelled), ("done", .onDone)]

/-- An event of the source; an event that the source makes itself has no data. -/
structure MessageEvent where
  type : String
  data : Option JsString := none

/-- A handler that was called, with its payload. -/
structure Call where
  name : Callback
  payload : Json

/-- The variables of `startChatStream`: its arguments, `source !== null` and `closed`, and the
calls it has made. -/
structure ChatStream where
  requestId : JsString
  handlers : Callback → Bool := fun _ => true
  source : Bool := true
  closed : Bool := false
  calls : List Call := []

def object (members : List (String × Json)) : Json :=
  .obj (members.map fun m => (Json.units m.1, m.2))

/-- The payload of an error that the client finds itself. -/
def clientError (error : String) (message requestId : JsString) (retryable : Bool) : Json :=
  object [("error", .str (Json.units error)), ("message", .str message),
    ("requestId", .str requestId), ("retryable", .bool retryable)]

/-- `parseEventData`; `none` where the data is malformed. -/
def parseEventData (data : Option JsString) : Option Json :=
  match data with
  | none => some (.obj [])
  | some [] => some (.obj [])
  | some text => Json.parse text

/-- An assignment to a property. -/
def setMember (members : List (JsString × Json)) (key : JsString) (v : Json) :
    List (JsString × Json) :=
  if members.any (fun m => m.1 = key) then
    members.map fun m => if m.1 = key then (key, v) else m
  else members ++ [(key, v)]

/-- The own properties that `...v` copies. -/
def ownProperties : Json → List (JsString × Json)
  | .obj members => members
  | .arr items => items.mapIdx fun i v => (Json.units (toString i), v)
  | .str s => s.mapIdx fun i u => (Json.units (toString i), .str [u])
  | _ => []

/-- `{ requestId, ...v }`. -/
def withRequestId (requestId : JsString) (v : Json) : Json :=
  .obj ((ownProperties v).foldl (fun members m => setMember members m.1 m.2)
    [(Json.units "requestId", .str requestId)])

namespace ChatStream

variable (s : ChatStream)

def close : ChatStream :=
  if s.closed then s else { s with closed := true, source := false }

def emit (name : Callback) (payload : Json) : ChatStream :=
  if s.handlers name then { s with calls := s.calls ++ [⟨name, payload⟩] } else s

def finish (name : Callback) (payload : Json) : ChatStream :=
  if s.closed then s else s.close.emit name payload

def failMalformed (eventName : String) : ChatStream :=
  s.finish .onError (clientError "bad_event_payload"
    (Json.units ("Malformed data on the \"" ++ eventName ++ "\" event")) s.requestId true)

/-- The three kinds of listeners; an event without a listener is dropped. -/
def receive (e : MessageEvent) : ChatStream :=
  if s.closed then s
  else
    match progressEvents.lookup e.type, terminalEvents.lookup e.type with
    | some name, _ =>
        match parseEventData e.data with
        | none => s.failMalformed e.type
        | some v => s.emit name v
    | none, some name =>
        match parseEventData e.data with
        | none => s.failMalformed e.type
        | some v => s.finish name v
    | none, none =>
        if e.type = "error" then
          if e.data.isNone then
            s.finish .onError (clientError "connection_lost"
              (Json.units "The connection to the shell stream dropped") s.requestId true)
          else
            match parseEventData e.data with
            | none => s.failMalformed "error"
            | some v => s.finish .onError (withRequestId s.requestId v)
        else s

end ChatStream

/-- `startChatStream` up to its return; `failure` is the message of the error where the source
cannot be opened, if it has one. -/
def startChatStream (requestId : JsString) (handlers : Callback → Bool)
    (failure : Option JsString) : ChatStream :=
  match failure with
  | none => { requestId := requestId, handlers := handlers }
  | some message =>
      let s : ChatStream :=
        { requestId := requestId, handlers := handlers, source := false, closed := true }
      s.emit .onError (clientError "stream_open_failed"
        (if message = [] then Json.units "Could not open the stream" else message) requestId false)

/-- The handlers that are called when a stream is over. -/
def Callback.isLast : Callback → Bool
  | .onCancelled | .onDone | .onError => true
  | _ => false

namespace ChatStream

variable {s : ChatStream}

/-- A source is there only as long as the stream is open. -/
def Sound (s : ChatStream) : Prop := s.source = true → s.closed = false

/-- What one event makes of a stream: further calls, and no last one on an open stream. -/
structure Grows (s : ChatStream) (new : List Call) (t : ChatStream) : Prop where
  calls : t.calls = s.calls ++ new
  sound : s.Sound → t.Sound
  goesOn : t.closed = false → s.closed = false ∧ ∀ call ∈ new, call.name.isLast = false

theorem Grows.refl : s.Grows [] s where
  calls := (List.append_nil _).symm
  sound := id
  goesOn := fun hopen => ⟨hopen, by simp⟩

theorem sound_close (h : s.Sound) : s.close.Sound := by
  unfold close
  split
  · exact h
  · simp [Sound]

theorem closed_close : s.close.closed = true := by
  unfold close
  split
  · assumption
  · rfl

@[simp] theorem close_calls : s.close.calls = s.calls := by
  unfold close
  split
  · rfl
  · rfl

theorem exists_grows_emit {name : Callback} (payload : Json) (hname : name.isLast = false) :
    ∃ new, s.Grows new (s.emit name payload) := by
  unfold emit
  split
  · exact ⟨[⟨name, payload⟩], rfl, id, fun hopen => ⟨hopen, by simp [hname]⟩⟩
  · exact ⟨[], Grows.refl⟩

theorem exists_grows_finish (name : Callback) (payload : Json) :
    ∃ new, s.Grows new (s.finish name payload) := by
  unfold finish emit
  split
  · exact ⟨[], Grows.refl⟩
  · split
    · refine ⟨[⟨name, payload⟩], by simp, sound_close, ?_⟩
      intro hopen
      exact absurd (closed_close.symm.trans hopen) (by simp)
    · refine ⟨[], by simp, sound_close, ?_⟩
      intro hopen
      exact absurd (closed_close.symm.trans hopen) (by simp)

theorem isLast_of_progress {type : String} {name : Callback}
    (h : progressEvents.lookup type = some name) : name.isLast = false := by
  have hall : ∀ e ∈ progressEvents, e.2.isLast = false := by decide
  obtain ⟨front, back, hlist, -⟩ := List.lookup_eq_some_iff.mp h
  exact hall (type, name) (by simp [hlist])

theorem exists_grows_receive (e : MessageEvent) : ∃ new, s.Grows new (s.receive e) := by
  unfold receive
  split
  · exact ⟨[], Grows.refl⟩
  · split
    · rename_i name _ hname
      cases parseEventData e.data with
      | none => exact exists_grows_finish _ _
      | some v => exact exists_grows_emit v (isLast_of_progress hname)
    · cases parseEventData e.data with
      | none => exact exists_grows_finish _ _
      | some v => exact exists_grows_finish _ _
    · split
      · split
        · exact exists_grows_finish _ _
        · cases parseEventData e.data with
          | none => exact exists_grows_finish _ _
          | some v => exact exists_grows_finish _ _
      · exact ⟨[], Grows.refl⟩

/-- A new stream is open and has called nothing, unless it could not be opened. -/
theorem startChatStream_cases (requestId : JsString) (handlers : Callback → Bool)
    (failure : Option JsString) :
    (startChatStream requestId handlers failure).Sound ∧
      ((startChatStream requestId handlers failure).closed = false →
        (startChatStream requestId handlers failure).calls = []) := by
  cases failure with
  | none => exact ⟨fun _ => rfl, fun _ => rfl⟩
  | some message =>
      simp only [startChatStream, emit]
      split
      · simp [Sound]
      · simp [Sound]

end ChatStream

end ServeInfer.Clients
