import ServeInfer.ShellApp.StreamFromApi

/-!
# What the shell app makes of a stream

The chunks of the body come to what the whole body in one piece would come to. A body
of written events is a text of their lines, and the reader undoes them one by one.
-/

namespace ServeInfer.ShellApp

open ApiServer (JsString SseEvent)

variable {numberText : JsString → JsString} {e e' : Events} {r r' : Reader}
  {line line' x y : JsString} {value value' : List UInt8} {chunks : List (List UInt8)}

section Chunks

/-- A part of a line waits for the rest of it. -/
theorem readLines_clean (e : Events) (line : JsString) (hx : newline ∉ x) (y : JsString) :
    e.readLines numberText line (x ++ y) = e.readLines numberText (line ++ x) y := by
  induction x generalizing line with
  | nil => rw [List.nil_append, List.append_nil]
  | cons u x ih =>
      rw [List.mem_cons, not_or] at hx
      obtain ⟨hu, hx⟩ := hx
      rw [List.cons_append, Events.readLines, if_neg (Ne.symm hu), ih _ hx, List.append_assoc,
        List.singleton_append]

theorem readLines_append (e : Events) (line x y : JsString) :
    e.readLines numberText line (x ++ y) =
      e.readLines numberText line x >>= fun left => left.2.readLines numberText left.1 y := by
  induction x generalizing e line with
  | nil => rfl
  | cons u x ih =>
      rw [List.cons_append, Events.readLines, Events.readLines]
      split
      · rw [bind_assoc]
        exact bind_congr fun e => ih e []
      · exact ih e _

/-- No newline is left in the buffer. -/
theorem newline_notMem_readLines (h : e.readLines numberText line x = .ok (line', e'))
    (hline : newline ∉ line) : newline ∉ line' := by
  induction x generalizing e line with
  | nil =>
      obtain ⟨rfl, -⟩ := Prod.mk.inj (Except.ok.inj h)
      exact hline
  | cons u x ih =>
      rw [Events.readLines] at h
      split at h
      · cases hread : e.readLine numberText line with
        | error thrown =>
            rw [hread] at h
            cases h
        | ok e =>
            rw [hread] at h
            exact ih h List.not_mem_nil
      · rename_i hu
        apply ih h
        rw [List.mem_append, List.mem_singleton, not_or]
        exact ⟨hline, Ne.symm hu⟩

/-- Two chunks are received as one. -/
theorem receive_append (hr : newline ∉ r.buffer) (value value' : List UInt8) :
    r.receive numberText (value ++ value') =
      r.receive numberText value >>= fun r => r.receive numberText value' := by
  obtain ⟨decoder, buffer, e⟩ := r
  unfold Reader.receive
  rw [Utf8.TextDecoder.decode_append]
  dsimp only
  rw [readLines_clean e [] hr, readLines_clean e [] hr, List.nil_append, readLines_append]
  cases hread : e.readLines numberText buffer (decoder.decode value).1 with
  | error thrown => rfl
  | ok left =>
      obtain ⟨buffer', e'⟩ := left
      have hclean := newline_notMem_readLines hread hr
      show (e'.readLines numberText buffer' _ >>= _) = (e'.readLines numberText [] _ >>= _)
      rw [readLines_clean e' [] hclean, List.nil_append]

theorem newline_notMem_receive (h : r.receive numberText value = .ok r')
    (hr : newline ∉ r.buffer) : newline ∉ r'.buffer := by
  obtain ⟨decoder, buffer, e⟩ := r
  unfold Reader.receive at h
  dsimp only at h
  rw [readLines_clean e [] hr, List.nil_append] at h
  cases hread : e.readLines numberText buffer (decoder.decode value).1 with
  | error thrown =>
      rw [hread] at h
      cases h
  | ok left =>
      rw [hread] at h
      obtain rfl := Except.ok.inj h
      exact newline_notMem_readLines hread hr

theorem receive_nil (r : Reader) (hr : newline ∉ r.buffer) : r.receive numberText [] = .ok r := by
  obtain ⟨decoder, buffer, e⟩ := r
  have hread : e.readLines numberText [] (buffer ++ []) = .ok (buffer, e) :=
    readLines_clean e [] hr []
  unfold Reader.receive
  rw [Utf8.TextDecoder.decode_nil]
  dsimp only
  rw [hread]
  rfl

variable {aborted : ℕ → Bool}

/-- What is left to be read comes to what it would come to in one piece. -/
theorem readLoop_eq (requestId : JsString) (turn : ℕ) (hr : newline ∉ r.buffer)
    (chunks : List (List UInt8)) (hsignal : ∀ k ≤ chunks.length, aborted (turn + k) = false) :
    readLoop numberText requestId aborted turn r chunks =
      match r.receive numberText chunks.flatten with
      | .ok r => (r.events.calls, streamAnswer numberText requestId r.events.finalDonePayload)
      | .error thrown => (thrown.calls, .error thrown.reason) := by
  induction chunks generalizing turn r with
  | nil =>
      have hturn : aborted turn = false := hsignal 0 le_rfl
      rw [readLoop, hturn, List.flatten_nil, receive_nil r hr]
      rfl
  | cons value chunks ih =>
      have hturn : aborted turn = false := hsignal 0 (Nat.zero_le _)
      rw [readLoop, hturn, List.flatten_cons, receive_append hr]
      cases hreceive : r.receive numberText value with
      | error thrown => rfl
      | ok r' =>
          apply ih (turn + 1) (newline_notMem_receive hreceive hr)
          intro k hk
          rw [Nat.add_right_comm]
          exact hsignal (k + 1) (Nat.succ_le_succ hk)

/-- A stream whose signal is aborted before a read is given up. -/
theorem readLoop_aborted (requestId : JsString) (turn : ℕ) (r : Reader)
    (chunks : List (List UInt8)) {k : ℕ} (hk : k ≤ chunks.length)
    (haborted : aborted (turn + k) = true) :
    ∃ reason, (readLoop numberText requestId aborted turn r chunks).2 = .error reason := by
  induction chunks generalizing turn r k with
  | nil =>
      obtain rfl := Nat.le_zero.mp hk
      have hturn : aborted turn = true := haborted
      rw [readLoop, if_pos hturn]
      exact ⟨_, rfl⟩
  | cons value chunks ih =>
      rw [readLoop]
      split_ifs with hturn
      · exact ⟨_, rfl⟩
      cases r.receive numberText value with
      | error thrown => exact ⟨_, rfl⟩
      | ok r' =>
          cases k with
          | zero => exact absurd haborted hturn
          | succ k =>
              rw [← Nat.add_assoc, Nat.add_right_comm] at haborted
              exact ih (turn + 1) r' (Nat.le_of_succ_le_succ hk) haborted

end Chunks

/-- The events that the api server names. -/
inductive EventName
  | token
  | done
  | error
  deriving DecidableEq, Repr

def EventName.text : EventName → String
  | .token => "token"
  | .done => "done"
  | .error => "error"

/-- An event with an object of JSON values, as `sendSse` is given it. -/
structure Sent (numberText : JsString → JsString) where
  name : EventName
  members : List (JsString × Json)
  isValue : Json.IsValue numberText (.obj members)

namespace Sent

variable {sent : List (Sent numberText)}

def payload (e : Sent numberText) : Json := .obj e.members

def sse (e : Sent numberText) : SseEvent := { event := e.name.text, payload := e.payload }

/-- The body of a response that these events were written to. -/
def body (sent : List (Sent numberText)) : List UInt8 :=
  sent.flatMap fun e => sendSse numberText e.sse

/-- The call that an event is for. -/
def call? (e : Sent numberText) : Option Call :=
  match e.name with
  | .token => some (.onToken e.payload)
  | .done => some (.onDone e.payload)
  | .error => none

/-- The event's two lines and the blank one behind them. -/
def text (e : Sent numberText) : JsString :=
  Json.units ("event: " ++ e.name.text ++ "\n") ++
    (Json.units "data: " ++ e.payload.stringify numberText ++ Json.units "\n\n")

section Bytes

/-- The bytes of an event up to its blank line are those of a text. -/
theorem exists_open (e : Sent numberText) :
    ∃ t, sendSse numberText e.sse = Utf8.encode t ++ [0x0A] ∧
      Utf8.utf16 t ++ [newline] = e.text := by
  obtain ⟨name, hname⟩ : ∃ t, Json.units ("event: " ++ e.name.text ++ "\n") = Utf8.utf16 t := by
    cases e.name with
    | token => exact ⟨"event: token\n".toList, by decide⟩
    | done => exact ⟨"event: done\n".toList, by decide⟩
    | error => exact ⟨"event: error\n".toList, by decide⟩
  obtain ⟨data, hdata⟩ : ∃ t, Json.units "data: " = Utf8.utf16 t := ⟨"data: ".toList, by decide⟩
  obtain ⟨payload, hpayload⟩ := (Json.printed_stringify e.payload e.isValue).text
  have hlast : Json.units "\n\n" = Utf8.utf16 ['\n'] ++ [newline] := by decide
  have hmark : Utf8.encode ['\n'] ++ [0x0A] = Utf8.encode ("\n\n".toList) := by decide
  have hend : Json.units "\n\n" = Utf8.utf16 "\n\n".toList := by decide
  refine ⟨name ++ (data ++ payload ++ ['\n']), ?_, ?_⟩
  · show Utf8.toBytes (Json.units ("event: " ++ e.name.text ++ "\n")) ++
      Utf8.toBytes (Json.units "data: " ++ e.payload.stringify numberText ++
        Json.units "\n\n") = _
    rw [hname, hdata, hpayload, hend, ← Utf8.utf16_append, ← Utf8.utf16_append,
      Utf8.toBytes_utf16, Utf8.toBytes_utf16, Utf8.encode_append name,
      Utf8.encode_append (data ++ payload), Utf8.encode_append (data ++ payload), ← hmark]
    simp only [List.append_assoc]
  · rw [text, hname, hdata, hpayload, hlast, Utf8.utf16_append, Utf8.utf16_append,
      Utf8.utf16_append]
    simp only [List.append_assoc]

/-- The bytes of an event are those of its text. -/
theorem exists_text (e : Sent numberText) :
    ∃ t, sendSse numberText e.sse = Utf8.encode t ∧ Utf8.utf16 t = e.text := by
  obtain ⟨t, hbytes, htext⟩ := e.exists_open
  have hmark : Utf8.encode ['\n'] = [0x0A] := by decide
  have hunits : Utf8.utf16 ['\n'] = [newline] := by decide
  refine ⟨t ++ ['\n'], ?_, ?_⟩
  · rw [hbytes, Utf8.encode_append, hmark]
  · rw [Utf8.utf16_append, hunits, htext]

theorem exists_text_body (sent : List (Sent numberText)) :
    ∃ t, body sent = Utf8.encode t ∧ Utf8.utf16 t = sent.flatMap text := by
  induction sent with
  | nil => exact ⟨[], rfl, rfl⟩
  | cons e sent ih =>
      obtain ⟨t, hbytes, htext⟩ := e.exists_text
      obtain ⟨t', hbytes', htext'⟩ := ih
      refine ⟨t ++ t', ?_, ?_⟩
      · rw [body, List.flatMap_cons, hbytes, ← body, hbytes', Utf8.encode_append]
      · rw [Utf8.utf16_append, htext, htext', List.flatMap_cons]

/-- No byte order mark stands in front of the events. -/
theorem head_ne_mark (h : x <+: sent.flatMap text) : x.head? ≠ some Utf8.byteOrderMark := by
  cases x with
  | nil => simp
  | cons u x =>
      cases sent with
      | nil => exact absurd (List.prefix_nil.mp h) (List.cons_ne_nil u x)
      | cons e sent =>
          obtain ⟨name, members, isValue⟩ := e
          obtain ⟨rest, h⟩ := h
          have hu := congrArg List.head? h
          cases name <;> simp [text, Json.units, EventName.text] at hu <;>
            simp [hu, Utf8.byteOrderMark]

/-- The body is decoded to the text of the events. -/
theorem decode_body (sent : List (Sent numberText)) :
    (({} : Utf8.TextDecoder).decode (body sent)).1 = sent.flatMap text := by
  obtain ⟨t, hbytes, htext⟩ := exists_text_body sent
  rw [hbytes, ← htext]
  apply Utf8.TextDecoder.decode_encode
  rw [htext]
  exact head_ne_mark (List.prefix_refl _)

end Bytes

section Lines

theorem readLines_line (e : Events) (hline : newline ∉ line) (y : JsString) :
    e.readLines numberText [] (line ++ newline :: y) =
      e.readLine numberText line >>= fun e => e.readLines numberText [] y := by
  rw [readLines_clean e [] hline, List.nil_append, Events.readLines, if_pos rfl]

/-- The event's text by its lines. -/
theorem text_eq (e : Sent numberText) :
    e.text = Json.units ("event: " ++ e.name.text) ++ newline ::
      (Json.units "data: " ++ e.payload.stringify numberText ++ newline :: [newline]) := by
  have hname : Json.units ("event: " ++ e.name.text ++ "\n") =
      Json.units ("event: " ++ e.name.text) ++ [newline] := by
    cases e.name <;> decide
  rw [text, hname, List.append_assoc]
  rfl

theorem newline_notMem_name (e : Sent numberText) :
    newline ∉ Json.units ("event: " ++ e.name.text) := by
  cases e.name <;> decide

theorem newline_notMem_data (e : Sent numberText) :
    newline ∉ Json.units "data: " ++ e.payload.stringify numberText := by
  have hplain := (Json.printed_stringify e.payload e.isValue).plain
  rw [List.mem_append, not_or]
  exact ⟨by decide, fun hmem => absurd (hplain newline hmem) (by decide)⟩

theorem readLine_name (e : Sent numberText) (events : Events) :
    events.readLine numberText (Json.units ("event: " ++ e.name.text)) =
      .ok { events with event := Json.units e.name.text } := by
  cases e.name <;> rfl

/-- An object has no white space around it. -/
theorem exists_stringify (e : Sent numberText) :
    ∃ inside, e.payload.stringify numberText = 0x7B :: (inside ++ [0x7D]) :=
  ⟨_, by rw [payload, Json.stringify]⟩

theorem readLine_data (e : Sent numberText) (events : Events) :
    events.readLine numberText (Json.units "data: " ++ e.payload.stringify numberText) =
      .ok { events with
        dataLines := events.dataLines ++ [e.payload.stringify numberText] } := by
  obtain ⟨inside, htext⟩ := e.exists_stringify
  have hend : Json.trimEnd (Json.units "data: " ++ e.payload.stringify numberText) =
      Json.units "data: " ++ e.payload.stringify numberText := by
    rw [Json.trimEnd, htext, ← List.cons_append, ← List.append_assoc, List.reverse_append,
      List.reverse_singleton, List.singleton_append, List.dropWhile_cons_of_neg (by decide),
      List.reverse_cons, List.reverse_reverse]
  have hstart : Json.trimStart ((Json.units "data: " ++ e.payload.stringify numberText).drop 5) =
      e.payload.stringify numberText := by
    show List.dropWhile Json.isWhite (0x20 :: e.payload.stringify numberText) = _
    rw [List.dropWhile_cons_of_pos (by decide), htext, List.dropWhile_cons_of_neg (by decide)]
  unfold Events.readLine
  dsimp only
  rw [hend, hstart]
  rfl

/-- The reader between two events. -/
def idle (calls : List Call) (finalDonePayload : Json) : Events :=
  { finalDonePayload := finalDonePayload, calls := calls }

variable {calls : List Call} {last : Json}

/-- The blank line behind an event's two lines. -/
theorem flushEvent_sent (e : Sent numberText) (calls : List Call) (last : Json) :
    ({ idle calls last with
        event := Json.units e.name.text
        dataLines := [e.payload.stringify numberText] } : Events).readLine numberText [] =
      match e.name with
      | .token => .ok (idle (calls ++ [.onToken e.payload]) last)
      | .done => .ok (idle (calls ++ [.onDone e.payload]) e.payload)
      | .error => .error ⟨calls, errorOf numberText e.payload⟩ := by
  have hparse : Json.parse ([newline].intercalate [e.payload.stringify numberText]) =
      some e.payload := by
    rw [List.intercalate_singleton]
    exact Json.parse_stringify e.isValue
  show ({ idle calls last with
    event := Json.units e.name.text
    dataLines := [e.payload.stringify numberText] } : Events).flushEvent numberText = _
  unfold Events.flushEvent
  dsimp only
  rw [hparse]
  cases e.name <;> rfl

/-- An event is read off the front of the text. -/
theorem readLines_text (e : Sent numberText) (calls : List Call) (last : Json) (y : JsString) :
    (idle calls last).readLines numberText [] (e.text ++ y) =
      match e.name with
      | .token => (idle (calls ++ [.onToken e.payload]) last).readLines numberText [] y
      | .done => (idle (calls ++ [.onDone e.payload]) e.payload).readLines numberText [] y
      | .error => .error ⟨calls, errorOf numberText e.payload⟩ := by
  have hflush := flushEvent_sent e calls last
  rw [text_eq, List.append_assoc, List.cons_append, List.append_assoc, List.cons_append,
    readLines_line _ e.newline_notMem_name, readLine_name]
  show Events.readLines _ _ [] (Json.units "data: " ++ e.payload.stringify numberText ++
    newline :: ([newline] ++ y)) = _
  rw [readLines_line _ e.newline_notMem_data, readLine_data]
  show Events.readLines _ _ [] ([] ++ newline :: y) = _
  rw [readLines_line _ List.not_mem_nil]
  show (({ idle calls last with
    event := Json.units e.name.text
    dataLines := [e.payload.stringify numberText] } : Events).readLine numberText [] >>= _) = _
  rw [hflush]
  cases e.name <;> rfl

/-- The payload of the last done event. -/
def lastDone (last : Json) (sent : List (Sent numberText)) : Json :=
  (((sent.filter (·.name = .done)).getLast?).map payload).getD last

/-- The calls up to the first error event. -/
def delivered (sent : List (Sent numberText)) : List Call :=
  (sent.takeWhile (·.name ≠ .error)).filterMap call?

/-- The events are read one after the other, up to the first error event. -/
theorem readLines_sent (calls : List Call) (last : Json) (sent : List (Sent numberText)) :
    (idle calls last).readLines numberText [] (sent.flatMap text) =
      match sent.find? (·.name = .error) with
      | some e => .error ⟨calls ++ delivered sent, errorOf numberText e.payload⟩
      | none => .ok ([], idle (calls ++ delivered sent) (lastDone last sent)) := by
  induction sent generalizing calls last with
  | nil =>
      rw [delivered, List.takeWhile_nil, List.filterMap_nil, List.append_nil]
      rfl
  | cons e sent ih =>
      rw [List.flatMap_cons, readLines_text]
      cases hname : e.name with
      | token =>
          have hdelivered : delivered (e :: sent) = .onToken e.payload :: delivered sent := by
            simp [delivered, hname, call?]
          have hlast : lastDone last (e :: sent) = lastDone last sent := by
            simp [lastDone, hname]
          dsimp only
          rw [ih, List.find?_cons_of_neg (by simp [hname]), hdelivered, hlast, List.append_assoc]
          rfl
      | done =>
          have hdelivered : delivered (e :: sent) = .onDone e.payload :: delivered sent := by
            simp [delivered, hname, call?]
          have hlast : lastDone last (e :: sent) = lastDone e.payload sent := by
            rw [lastDone, lastDone, List.filter_cons_of_pos (by simp [hname]), List.getLast?_cons]
            cases (sent.filter (·.name = .done)).getLast? <;> rfl
          dsimp only
          rw [ih, List.find?_cons_of_neg (by simp [hname]), hdelivered, hlast, List.append_assoc]
          rfl
      | error =>
          have hdelivered : delivered (e :: sent) = [] := by
            simp [delivered, hname]
          rw [List.find?_cons_of_pos (by simp [hname]), hdelivered, List.append_nil]

/-- What the reader has received behind a body of events. -/
theorem receive_body (sent : List (Sent numberText)) :
    ({} : Reader).receive numberText (body sent) =
      match sent.find? (·.name = .error) with
      | some e => .error ⟨delivered sent, errorOf numberText e.payload⟩
      | none => .ok
          { decoder := (({} : Utf8.TextDecoder).decode (body sent)).2
            events := idle (delivered sent) (lastDone .null sent) } := by
  have hread := readLines_sent [] .null sent
  rw [Reader.receive, decode_body]
  show (Events.readLines numberText (idle [] .null) [] (sent.flatMap text) >>= _) = _
  rw [hread]
  cases sent.find? (·.name = .error) <;> rfl

/-- What a stream of events comes to. -/
theorem streamFromApi_sent {aborted : ℕ → Bool} (requestId : JsString)
    (hsignal : ∀ turn, aborted turn = false) (hchunks : chunks.flatten = body sent) :
    streamFromApi numberText requestId aborted chunks =
      (delivered sent,
        match sent.find? (·.name = .error) with
        | some e => .error (errorOf numberText e.payload)
        | none => streamAnswer numberText requestId (lastDone .null sent)) := by
  rw [streamFromApi, readLoop_eq requestId 0 List.not_mem_nil chunks fun k _ => hsignal _, hchunks,
    receive_body]
  cases sent.find? (·.name = .error) <;> rfl

end Lines

section Outcome

/-- The error of an event whose `error` member has a text. -/
theorem errorOf_payload {message : JsString} (e : Sent numberText)
    (hmessage : textOr numberText (e.payload.get? "error") "api_stream_error" = some message) :
    errorOf numberText e.payload = .api message e.payload := by
  show ((textOr numberText (e.payload.get? "error") "api_stream_error").map
    fun message => Rejection.api message e.payload).getD .typeError = _
  rw [hmessage]
  rfl

/-- The answer of a done event whose members have texts. -/
theorem streamAnswer_payload {result device : JsString} (e : Sent numberText)
    (requestId : JsString)
    (hresult : textOr numberText (e.payload.get? "result") "" = some result)
    (hdevice : textOr numberText (e.payload.get? "device") "cpu" = some device) :
    streamAnswer numberText requestId e.payload = .ok
      { requestId := requestId
        result := result
        device := device
        degraded := (e.payload.get? "degraded").any (Json.truthy numberText)
        degradedReason := some
          (((e.payload.get? "degradedReason").filter (Json.truthy numberText)).getD .null) } := by
  have htruthy : e.payload.truthy numberText = true := rfl
  rw [streamAnswer, if_pos htruthy, hresult, hdevice]

/-- Every payload in front of the first error event is handed over once and in order; the
error's payload is what the stream is rejected with, and the last answer's members are what it
returns, where what is made a text of has one. -/
theorem sse_round_trip {aborted : ℕ → Bool} (requestId : JsString) (sent : List (Sent numberText))
    (chunks : List (List UInt8)) (hchunks : chunks.flatten = body sent)
    (hsignal : ∀ turn, aborted turn = false) :
    (streamFromApi numberText requestId aborted chunks).1 = delivered sent ∧
      (∀ e message, sent.find? (·.name = .error) = some e →
        textOr numberText (e.payload.get? "error") "api_stream_error" = some message →
        (streamFromApi numberText requestId aborted chunks).2 =
          .error (.api message e.payload)) ∧
      (∀ e result device, sent.find? (·.name = .error) = none →
        (sent.filter (·.name = .done)).getLast? = some e →
        textOr numberText (e.payload.get? "result") "" = some result →
        textOr numberText (e.payload.get? "device") "cpu" = some device →
        (streamFromApi numberText requestId aborted chunks).2 = .ok
          { requestId := requestId
            result := result
            device := device
            degraded := (e.payload.get? "degraded").any (Json.truthy numberText)
            degradedReason := some
              (((e.payload.get? "degradedReason").filter (Json.truthy numberText)).getD
                .null) }) ∧
      (sent.find? (·.name = .error) = none → (∀ e ∈ sent, e.name ≠ .done) →
        (streamFromApi numberText requestId aborted chunks).2 = .ok
          { requestId := requestId
            result := []
            device := Json.units "cpu"
            degraded := false }) := by
  rw [streamFromApi_sent requestId hsignal hchunks]
  refine ⟨rfl, ?_, ?_, ?_⟩
  · intro e message herror hmessage
    rw [herror]
    dsimp only
    rw [errorOf_payload e hmessage]
  · intro e result device herror hdone hresult hdevice
    have hlast : lastDone .null sent = e.payload := by
      rw [lastDone, hdone]
      rfl
    rw [herror]
    dsimp only
    rw [hlast]
    exact streamAnswer_payload e requestId hresult hdevice
  · intro herror hdone
    have hlast : lastDone .null sent = .null := by
      rw [lastDone, List.filter_eq_nil_iff.mpr fun e he => by simpa using hdone e he]
      rfl
    rw [herror]
    dsimp only
    rw [hlast]
    rfl

/-- A token and the answer. -/
def greeting : List (Sent id) :=
  [{ name := .token
     members := [(Json.units "token", .str (Json.units "Hi"))]
     isValue := by simp [Json.IsValue, Json.AreMembers] },
    { name := .done
      members := [(Json.units "result", .str (Json.units "Hi")),
        (Json.units "degraded", .bool true)]
      isValue := by simp [Json.IsValue, Json.AreMembers] }]

theorem sse_round_trip_greeting :
    (streamFromApi id (Json.units "r") (fun _ => false)
        [(body greeting).take 9, (body greeting).drop 9]).1 = delivered greeting ∧
      (streamFromApi id (Json.units "r") (fun _ => false)
        [(body greeting).take 9, (body greeting).drop 9]).2 = .ok
        { requestId := Json.units "r"
          result := Json.units "Hi"
          device := Json.units "cpu"
          degraded := true
          degradedReason := some .null } := by
  have hchunks : [(body greeting).take 9, (body greeting).drop 9].flatten = body greeting := by
    simp
  obtain ⟨hcalls, -, hanswer, -⟩ := @sse_round_trip id (fun _ => false) (Json.units "r")
    greeting [(body greeting).take 9, (body greeting).drop 9] hchunks fun _ => rfl
  exact ⟨hcalls, hanswer (greeting.get ⟨1, by decide⟩) _ _ rfl rfl rfl rfl⟩

/-- An object with a `toString` of its own has no text, so that an error event with one rejects
without its payload, and an answer with one is not returned. -/
theorem not_sse_round_trip :
    (¬ ∀ (sent : List (Sent id)) (e : Sent id) (chunks : List (List UInt8)),
        chunks.flatten = body sent → sent.find? (·.name = .error) = some e →
        ∃ message, (streamFromApi id [] (fun _ => false) chunks).2 =
          .error (.api message e.payload)) ∧
      ¬ ∀ (sent : List (Sent id)) (chunks : List (List UInt8)),
        chunks.flatten = body sent → sent.find? (·.name = .error) = none →
        ∃ answer, (streamFromApi id [] (fun _ => false) chunks).2 = .ok answer := by
  constructor
  · intro h
    let e : Sent id :=
      { name := .error
        members := [(Json.units "error", .obj [(Json.units "toString", .null)])]
        isValue := by simp [Json.IsValue, Json.AreMembers] }
    obtain ⟨message, hmessage⟩ := h [e] e [body [e]] (by simp) rfl
    rw [streamFromApi_sent [] (fun _ => rfl) (List.flatten_singleton)] at hmessage
    cases hmessage
  · intro h
    let e : Sent id :=
      { name := .done
        members := [(Json.units "result", .obj [(Json.units "toString", .null)])]
        isValue := by simp [Json.IsValue, Json.AreMembers] }
    obtain ⟨answer, hanswer⟩ := h [e] [body [e]] (by simp) rfl
    rw [streamFromApi_sent [] (fun _ => rfl) (List.flatten_singleton)] at hanswer
    cases hanswer

end Outcome

end Sent

end ServeInfer.ShellApp
