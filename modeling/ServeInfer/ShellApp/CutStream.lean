import ServeInfer.Lib.Lines
import ServeInfer.ShellApp.SseRoundTrip

/-!
# A stream that is cut off

The body ends in front of its last event's blank line. What was read of an event that
is not complete leaves the calls and the answer as they were, so that a stream without
an answer comes to the same as one whose answer was empty.
-/

namespace ServeInfer.ShellApp

open ApiServer (JsString)

namespace Sent

variable {numberText : JsString → JsString} {sent front : List (Sent numberText)}
  {e : Sent numberText} {calls : List Call} {last : Json} {aborted : ℕ → Bool}
  {v w : JsString} {begun ended : List UInt8} {chunks : List (List UInt8)}

section Cut

/-- The beginning of an event is decoded to the beginning of its text. -/
theorem exists_decode_begun (front : List (Sent numberText)) (hended : ended ≠ [])
    (he : begun ++ ended = sendSse numberText e.sse) :
    ∃ w, ((({} : Utf8.TextDecoder).decode (body front)).2.decode begun).1 ++ w ++ [newline] =
      e.text := by
  obtain ⟨t, hbytes, htext⟩ := e.exists_open
  obtain ⟨tfront, hfront, htfront⟩ := exists_text_body front
  obtain ⟨ended, last, rfl⟩ := (List.eq_nil_or_concat ended).resolve_left hended
  rw [hbytes, List.concat_eq_append, ← List.append_assoc] at he
  obtain ⟨hbegun, -⟩ := List.append_inj' he rfl
  have hunits : (({} : Utf8.TextDecoder).decode (body front ++ (begun ++ ended))).1 =
      Utf8.utf16 (tfront ++ t) := by
    rw [hfront, hbegun, ← Utf8.encode_append]
    apply Utf8.TextDecoder.decode_encode
    have hprefix : Utf8.utf16 (tfront ++ t) <+: (front ++ [e]).flatMap text := by
      refine ⟨[newline], ?_⟩
      rw [List.flatMap_append, List.flatMap_singleton, ← htfront, ← htext, Utf8.utf16_append,
        List.append_assoc]
    exact head_ne_mark hprefix
  rw [Utf8.TextDecoder.decode_append, Utf8.TextDecoder.decode_append, decode_body,
    Utf8.utf16_append, htfront] at hunits
  rw [← htext, ← List.append_cancel_left hunits]
  exact ⟨_, rfl⟩

/-- What has been read of an event's text leaves the calls and the answer as they were. -/
theorem exists_readLines_begun (calls : List Call) (last : Json)
    (he : v ++ w ++ [newline] = e.text) :
    ∃ line events, (idle calls last).readLines numberText [] v = .ok (line, events) ∧
      events.calls = calls ∧ events.finalDonePayload = last := by
  have hlines : v ++ w = Lines.joined newline [Json.units ("event: " ++ e.name.text),
      Json.units "data: " ++ e.payload.stringify numberText] ++ [] := by
    refine List.append_cancel_right (?_ : _ ++ [newline] = _ ++ [newline])
    rw [he, text_eq, Lines.joined_cons, Lines.joined_cons, Lines.joined_nil]
    simp only [List.append_assoc, List.cons_append, List.nil_append, List.append_nil]
  have hclean : ∀ l ∈ [Json.units ("event: " ++ e.name.text),
      Json.units "data: " ++ e.payload.stringify numberText], newline ∉ l := by
    intro l hl
    rw [List.mem_cons, List.mem_singleton] at hl
    obtain rfl | rfl := hl
    · exact e.newline_notMem_name
    · exact e.newline_notMem_data
  obtain ⟨front, back, rest, hfront, rfl, hrest, -⟩ :=
    Lines.exists_split hclean List.not_mem_nil hlines
  -- The rest of a line waits in the buffer.
  have hwaits : ∀ events : Events,
      events.readLines numberText [] rest = .ok (rest, events) := by
    intro events
    calc events.readLines numberText [] rest
        = events.readLines numberText [] (rest ++ []) := by rw [List.append_nil]
      _ = events.readLines numberText ([] ++ rest) [] := readLines_clean events [] hrest []
      _ = .ok (rest, events) := by rw [List.nil_append, Events.readLines]
  cases front with
  | nil => exact ⟨rest, idle calls last, hwaits _, rfl, rfl⟩
  | cons name front =>
      obtain ⟨rfl, htail⟩ := List.cons.inj hfront
      rw [Lines.joined_cons, List.append_assoc, List.cons_append,
        readLines_line _ e.newline_notMem_name, readLine_name]
      cases front with
      | nil => exact ⟨rest, _, hwaits _, rfl, rfl⟩
      | cons data front =>
          obtain ⟨hdata, hnil⟩ := List.cons.inj htail
          obtain ⟨rfl, -⟩ := List.append_eq_nil_iff.mp hnil.symm
          refine ⟨rest, { idle calls last with
            event := Json.units e.name.text
            dataLines := [e.payload.stringify numberText] }, ?_, rfl, rfl⟩
          show Events.readLines _ _ [] (Lines.joined newline [data] ++ rest) = _
          rw [Lines.joined_cons, List.append_assoc, List.cons_append, ← hdata,
            readLines_line _ e.newline_notMem_data, readLine_data]
          exact hwaits _

/-- The reader behind some events and the beginning of one. -/
theorem exists_receive_begun (front : List (Sent numberText))
    (hbegun : begun = [] ∨
      ∃ (e : Sent numberText) (ended : List UInt8), ended ≠ [] ∧
        begun ++ ended = sendSse numberText e.sse) (calls : List Call) (last : Json) :
    ∃ r, ({ decoder := (({} : Utf8.TextDecoder).decode (body front)).2
            events := idle calls last } : Reader).receive numberText begun = .ok r ∧
      r.events.calls = calls ∧ r.events.finalDonePayload = last := by
  obtain rfl | ⟨e, ended, hended, he⟩ := hbegun
  · exact ⟨_, receive_nil _ List.not_mem_nil, rfl, rfl⟩
  · obtain ⟨w, hw⟩ := exists_decode_begun front hended he
    obtain ⟨line, events, hread, hcalls, hlast⟩ := exists_readLines_begun calls last hw
    refine ⟨
      { decoder := ((({} : Utf8.TextDecoder).decode (body front)).2.decode begun).2
        buffer := line
        events := events }, ?_, hcalls, hlast⟩
    unfold Reader.receive
    dsimp only
    rw [List.nil_append, hread]
    rfl

/-- A stream that is cut off comes to what its complete events come to. -/
theorem streamFromApi_begun (requestId : JsString)
    (hsignal : ∀ k ≤ chunks.length, aborted k = false)
    (hchunks : chunks.flatten = body front ++ begun)
    (hbegun : begun = [] ∨
      ∃ (e : Sent numberText) (ended : List UInt8), ended ≠ [] ∧
        begun ++ ended = sendSse numberText e.sse) :
    streamFromApi numberText requestId aborted chunks =
      (delivered front,
        match front.find? (·.name = .error) with
        | some e => .error (errorOf numberText e.payload)
        | none => streamAnswer numberText requestId (lastDone .null front)) := by
  obtain ⟨r, hreceive, hcalls, hlast⟩ :=
    exists_receive_begun front hbegun (delivered front) (lastDone .null front)
  have hturns : ∀ k ≤ chunks.length, aborted (0 + k) = false := by
    intro k hk
    rw [Nat.zero_add]
    exact hsignal k hk
  rw [streamFromApi, readLoop_eq requestId 0 List.not_mem_nil chunks hturns, hchunks,
    receive_append List.not_mem_nil, receive_body]
  cases front.find? (·.name = .error) with
  | some e => rfl
  | none =>
      simp only [bind, Except.bind]
      rw [hreceive]
      dsimp only
      rw [hcalls, hlast]

end Cut

section Outcome

/-- The answer of a done event has a reason, if only `null`. -/
theorem degradedReason_streamAnswer {answer : StreamAnswer} (requestId : JsString)
    (h : streamAnswer numberText requestId e.payload = .ok answer) :
    answer.degradedReason ≠ none := by
  have htruthy : e.payload.truthy numberText = true := rfl
  rw [streamAnswer, if_pos htruthy] at h
  split at h
  · obtain rfl := Except.ok.inj h
    exact Option.some_ne_none _
  · cases h

/-- The events that are read come to an answer or a rejection if one of them says so. -/
theorem outcome_iff (requestId : JsString) (front back : List (Sent numberText)) :
    ((∃ reason, (match front.find? (·.name = .error) with
          | some e => Except.error (errorOf numberText e.payload)
          | none => streamAnswer numberText requestId (lastDone .null front)) = .error reason) ∨
        ∃ e ∈ front ++ back, e.name = .done ∧
          (match front.find? (·.name = .error) with
            | some e => Except.error (errorOf numberText e.payload)
            | none => streamAnswer numberText requestId (lastDone .null front)) =
            streamAnswer numberText requestId e.payload) ↔
      ∃ e ∈ front, e.name ≠ .token := by
  cases herror : front.find? (·.name = .error) with
  | some e =>
      have hname : e.name = .error := by simpa using List.find?_some herror
      refine ⟨fun _ => ⟨e, List.mem_of_find?_eq_some herror, ?_⟩, fun _ => Or.inl ⟨_, rfl⟩⟩
      rw [hname]
      decide
  | none =>
      rw [List.find?_eq_none] at herror
      dsimp only
      constructor
      · intro h
        by_contra htokens
        have hdones : front.filter (·.name = .done) = [] := by
          rw [List.filter_eq_nil_iff]
          intro e he hdone
          apply htokens
          refine ⟨e, he, ?_⟩
          rw [of_decide_eq_true hdone]
          decide
        have hlast : lastDone .null front = .null := by
          rw [lastDone, hdones]
          rfl
        rw [hlast] at h
        obtain ⟨reason, hreason⟩ | ⟨e, -, -, hanswer⟩ := h
        · cases hreason
        · exact degradedReason_streamAnswer requestId hanswer.symm rfl
      · rintro ⟨e, he, htoken⟩
        have hdone : e.name = .done := by
          cases hname : e.name with
          | token => exact absurd hname htoken
          | done => rfl
          | error => exact absurd (decide_eq_true hname) (herror e he)
        have hmem : e ∈ front.filter (·.name = .done) :=
          List.mem_filter.mpr ⟨he, decide_eq_true hdone⟩
        cases hlast : (front.filter (·.name = .done)).getLast? with
        | none =>
            rw [List.getLast?_eq_none_iff] at hlast
            rw [hlast] at hmem
            cases hmem
        | some answer =>
            obtain ⟨hfront, hname⟩ := List.mem_filter.mp (List.mem_of_getLast? hlast)
            have hpayload : lastDone .null front = answer.payload := by
              rw [lastDone, hlast]
              rfl
            exact Or.inr ⟨answer, List.mem_append_left back hfront, of_decide_eq_true hname,
              by rw [hpayload]⟩

/-- The events whose bytes have all come are those in front of the cut. -/
theorem complete_iff {back : List (Sent numberText)}
    (hcut : back = [] ∧ begun = [] ∨
      ∃ e back' ended, back = e :: back' ∧ ended ≠ [] ∧
        begun ++ ended = sendSse numberText e.sse) :
    (∃ front' e, front' ++ [e] <+: front ++ back ∧ e.name ≠ .token ∧
        body (front' ++ [e]) <+: body front ++ begun) ↔
      ∃ e ∈ front, e.name ≠ .token := by
  constructor
  · rintro ⟨front', e, hprefix, hname, hbytes⟩
    refine ⟨e, ?_, hname⟩
    have hlast : e ∈ front' ++ [e] := List.mem_append_right front' (List.mem_singleton.mpr rfl)
    obtain hshort | ⟨more, hmore⟩ :=
      List.prefix_or_prefix_of_prefix hprefix (List.prefix_append front back)
    · exact hshort.subset hlast
    cases more with
    | nil =>
        rw [List.append_nil] at hmore
        rwa [hmore]
    | cons item more =>
        -- The cut would lie behind an event that is not complete.
        rw [← hmore, List.prefix_append_right_inj] at hprefix
        rw [← hmore, body, List.flatMap_append, ← body, List.prefix_append_right_inj,
          List.flatMap_cons] at hbytes
        obtain ⟨rfl, -⟩ | ⟨item', back', ended, rfl, hended, hitem⟩ := hcut
        · cases List.prefix_nil.mp hprefix
        · obtain ⟨rfl, -⟩ := List.cons_prefix_cons.mp hprefix
          have hlength := hbytes.length_le
          have hpos := List.length_pos_iff.mpr hended
          rw [List.length_append, ← hitem, List.length_append] at hlength
          omega
  · rintro ⟨e, he, hname⟩
    obtain ⟨front', behind, rfl⟩ := List.append_of_mem he
    refine ⟨front', e, ⟨behind ++ back, by simp⟩, hname,
      ⟨body behind ++ begun, ?_⟩⟩
    simp [body]

/-- The stream is answered with a done event's members or rejected exactly where its signal was
aborted in front of a read or one of its done and error events has come whole. -/
theorem answered_or_rejected_iff (requestId : JsString) (aborted : ℕ → Bool)
    (sent : List (Sent numberText)) (chunks : List (List UInt8))
    (hcut : chunks.flatten <+: body sent) :
    ((∃ reason, (streamFromApi numberText requestId aborted chunks).2 = .error reason) ∨
        ∃ e ∈ sent, e.name = .done ∧
          (streamFromApi numberText requestId aborted chunks).2 =
            streamAnswer numberText requestId e.payload) ↔
      (∃ turn ≤ chunks.length, aborted turn = true) ∨
        ∃ front e, front ++ [e] <+: sent ∧ e.name ≠ .token ∧
          body (front ++ [e]) <+: chunks.flatten := by
  by_cases haborted : ∃ turn ≤ chunks.length, aborted turn = true
  · refine iff_of_true (Or.inl ?_) (Or.inl haborted)
    obtain ⟨turn, hturn, hsignal⟩ := haborted
    rw [← Nat.zero_add turn] at hsignal
    exact readLoop_aborted requestId 0 {} chunks hturn hsignal
  · obtain ⟨rest, hrest⟩ := hcut
    obtain ⟨front, back, begun, rfl, hchunks, hbegun⟩ := Lines.exists_cut hrest
    have hsignal : ∀ k ≤ chunks.length, aborted k = false := by
      intro k hk
      by_contra h
      exact haborted ⟨k, hk, eq_true_of_ne_false h⟩
    have hbegun' : begun = [] ∨
        ∃ (e : Sent numberText) (ended : List UInt8), ended ≠ [] ∧
          begun ++ ended = sendSse numberText e.sse := by
      obtain ⟨-, hnil⟩ | ⟨e, -, ended, -, hended, he⟩ := hbegun
      · exact Or.inl hnil
      · exact Or.inr ⟨e, ended, hended, he⟩
    rw [or_iff_right haborted, streamFromApi_begun requestId hsignal hchunks hbegun', hchunks]
    exact (outcome_iff requestId front back).trans (complete_iff hbegun).symm

theorem answered_or_rejected_iff_greeting :
    (streamFromApi id [] (fun _ => false) [body greeting]).2 = .ok
      { requestId := []
        result := Json.units "Hi"
        device := Json.units "cpu"
        degraded := true
        degradedReason := some .null } := by
  obtain ⟨reason, hreason⟩ | ⟨e, he, hdone, hanswer⟩ :=
    (answered_or_rejected_iff [] (fun _ => false) greeting [body greeting]
      (List.flatten_singleton ▸ List.prefix_refl _)).mpr
      (Or.inr ⟨greeting.take 1, greeting.get ⟨1, by decide⟩, List.prefix_refl _, by decide,
        by rw [List.flatten_singleton]; exact List.prefix_refl _⟩)
  · rw [streamFromApi_sent [] (fun _ => rfl) (List.flatten_singleton)] at hreason
    cases hreason
  · rw [hanswer]
    simp only [greeting, List.mem_cons, List.not_mem_nil, or_false] at he
    obtain rfl | rfl := he
    · cases hdone
    · rfl

/-- The body ends behind the token, and the stream comes to an empty answer. -/
theorem not_answered_or_rejected :
    ¬ ∀ (sent : List (Sent id)) (chunks : List (List UInt8)),
      (∃ e, sent.getLast? = some e ∧ (e.name = .done ∨ e.name = .error)) →
      chunks.flatten <+: body sent →
      (∃ reason, (streamFromApi id [] (fun _ => false) chunks).2 = .error reason) ∨
        ∃ e ∈ sent, e.name = .done ∧
          (streamFromApi id [] (fun _ => false) chunks).2 = streamAnswer id [] e.payload := by
  intro h
  have hcut : [body (greeting.take 1)].flatten <+: body greeting := by
    rw [List.flatten_singleton]
    exact ⟨body (greeting.drop 1), List.flatMap_append.symm⟩
  have hread : (streamFromApi id [] (fun _ => false) [body (greeting.take 1)]).2 = .ok
      { requestId := []
        result := []
        device := Json.units "cpu"
        degraded := false } := by
    rw [streamFromApi_sent [] (fun _ => rfl) (List.flatten_singleton)]
    rfl
  obtain ⟨reason, hreason⟩ | ⟨e, -, -, hanswer⟩ :=
    h greeting [body (greeting.take 1)] ⟨_, rfl, Or.inl rfl⟩ hcut
  · rw [hread] at hreason
    cases hreason
  · rw [hread] at hanswer
    exact degradedReason_streamAnswer [] hanswer.symm rfl

end Outcome

end Sent

end ServeInfer.ShellApp
