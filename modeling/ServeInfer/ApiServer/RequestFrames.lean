import ServeInfer.ApiServer.WorkerPool
import ServeInfer.InferenceWorker.JobParsing

/-!
# Request frames

What a run writes on its socket, and what the worker reads of it. Every field is
read from where it stands. The unescaper knows five escapes, so of the control
characters only the line breaks and the tab come through.
-/

namespace ServeInfer.ApiServer

open InferenceWorker Json
open Utf8 (toBytes unit encode encodeChar utf16)

namespace InferRequest

/-- `JSON.stringify` of the infer payload. -/
def json (r : InferRequest) : JsString :=
  units "\x7b\"type\":\"infer\",\"requestId\":" ++ (quoteJSONString r.requestId ++
    (units ",\"prompt\":" ++ (quoteJSONString r.prompt ++
      (units ",\"mfeId\":" ++ (quoteJSONString r.mfeId ++
        (units ",\"stream\":" ++ (units (if r.stream then "true" else "false") ++
          units "\x7d")))))))

/-- The line in bytes. -/
def line (r : InferRequest) : Bytes := toBytes r.json

end InferRequest

/-- A member of the payload whose value is a string, and the comma behind it. -/
def member (name : String) (x rest : Bytes) : Bytes :=
  0x22 :: (bytes name ++ 0x22 :: 0x3A :: 0x22 :: (x ++ 0x22 :: 0x2C :: rest))

theorem toBytes_units {s : String} (h : units s = (bytes s).map unit)
    (hascii : ∀ b ∈ bytes s, b.toNat < 0x80) (t : JsString) :
    toBytes (units s ++ t) = bytes s ++ toBytes t := by
  rw [h]
  exact toBytes_ascii_append hascii t

/-- The line, member by member. -/
theorem line_eq (r : InferRequest) :
    r.line = 0x7B :: member "type" (bytes "infer") (member "requestId" (insideText r.requestId)
      (member "prompt" (insideText r.prompt) (member "mfeId" (insideText r.mfeId)
        (0x22 :: (bytes "stream" ++ 0x22 :: 0x3A :: (flagText r.stream ++ [0x7D])))))) := by
  have hclosing : toBytes (units "\x7d") = [0x7D] := by decide
  have hflag : toBytes (units (if r.stream then "true" else "false") ++ units "\x7d") =
      flagText r.stream ++ [0x7D] := by
    cases r.stream <;> decide
  rw [InferRequest.line, InferRequest.json,
    toBytes_units (by decide) (by decide), toBytes_quoteJSONString,
    toBytes_units (by decide) (by decide), toBytes_quoteJSONString,
    toBytes_units (by decide) (by decide), toBytes_quoteJSONString,
    toBytes_units (by decide) (by decide), hflag]
  have hopening : bytes "\x7b\"type\":\"infer\",\"requestId\":" =
      0x7B :: 0x22 :: (bytes "type" ++ 0x22 :: 0x3A :: 0x22 :: (bytes "infer" ++ 0x22 :: 0x2C ::
        0x22 :: (bytes "requestId" ++ [0x22, 0x3A]))) := by decide
  have hprompt : bytes ",\"prompt\":" = 0x2C :: 0x22 :: (bytes "prompt" ++ [0x22, 0x3A]) := by
    decide
  have hmfe : bytes ",\"mfeId\":" = 0x2C :: 0x22 :: (bytes "mfeId" ++ [0x22, 0x3A]) := by
    decide
  have hstream : bytes ",\"stream\":" = 0x2C :: 0x22 :: (bytes "stream" ++ [0x22, 0x3A]) := by
    decide
  rw [hopening, hprompt, hmfe, hstream]
  simp only [member, List.append_assoc, List.cons_append, List.nil_append]

section Parsing

variable (r : InferRequest)

theorem isKey_names : IsKey (bytes "type") ∧ IsKey (bytes "requestId") ∧ IsKey (bytes "prompt") ∧
    IsKey (bytes "mfeId") ∧ IsKey (bytes "stream") := by
  decide

theorem inside_infer : Inside (bytes "infer") := inside_of_plain (by decide)

/-- A text that begins as the line does, up to the closing quote of its prompt. -/
def throughPrompt (rest : Bytes) : Bytes :=
  0x7B :: member "type" (bytes "infer") (member "requestId" (insideText r.requestId)
    (0x22 :: (bytes "prompt" ++ 0x22 :: 0x3A :: 0x22 :: (insideText r.prompt ++ 0x22 :: rest))))

/-- What the line has behind its prompt. -/
def behindPrompt : Bytes :=
  0x2C :: member "mfeId" (insideText r.mfeId)
    (0x22 :: (bytes "stream" ++ 0x22 :: 0x3A :: (flagText r.stream ++ [0x7D])))

theorem line_eq_through : r.line = throughPrompt r (behindPrompt r) := line_eq r

variable (rest : Bytes)

theorem extractString_type :
    extractString (throughPrompt r rest) (bytes "type") = some (bytes "infer") := by
  have hsearch : (stringPattern (bytes "type")).search (throughPrompt r rest) =
      some (bytes "infer") := by
    rw [throughPrompt, search_other captures_stringPattern (by decide), member]
    exact search_stringPattern inside_infer _
  rw [extractString, hsearch]
  decide

/-- The request id is read from its own member. -/
theorem extractString_requestId :
    extractString (throughPrompt r rest) (bytes "requestId") =
      some (unescape (insideText r.requestId)) := by
  obtain ⟨htype, hid, -, -, -⟩ := isKey_names
  have hsearch : (stringPattern (bytes "requestId")).search (throughPrompt r rest) =
      some (insideText r.requestId) := by
    rw [throughPrompt, search_other captures_stringPattern (by decide), member,
      search_member captures_stringPattern hid htype (by decide) inside_infer, member]
    exact search_stringPattern (inside_insideText _) _
  rw [extractString, hsearch, Option.map_some]

/-- The prompt is read from its own member, whatever the request id. -/
theorem extractString_prompt :
    extractString (throughPrompt r rest) (bytes "prompt") =
      some (unescape (insideText r.prompt)) := by
  obtain ⟨htype, hid, hprompt, -, -⟩ := isKey_names
  have hsearch : (stringPattern (bytes "prompt")).search (throughPrompt r rest) =
      some (insideText r.prompt) := by
    rw [throughPrompt, search_other captures_stringPattern (by decide), member,
      search_member captures_stringPattern hprompt htype (by decide) inside_infer, member,
      search_member captures_stringPattern hprompt hid (by decide) (inside_insideText _)]
    exact search_stringPattern (inside_insideText _) _
  rw [extractString, hsearch, Option.map_some]

/-- The flag is read from its own member, whatever the strings. -/
theorem extractBool_stream : extractBool r.line (bytes "stream") false = r.stream := by
  obtain ⟨htype, hid, hprompt, hmfe, hstream⟩ := isKey_names
  have hsearch : (boolPattern (bytes "stream")).search r.line = some (flagText r.stream) := by
    rw [line_eq, search_other captures_boolPattern (by decide), member,
      search_member captures_boolPattern hstream htype (by decide) inside_infer, member,
      search_member captures_boolPattern hstream hid (by decide) (inside_insideText _),
      member,
      search_member captures_boolPattern hstream hprompt (by decide) (inside_insideText _),
      member,
      search_member captures_boolPattern hstream hmfe (by decide) (inside_insideText _)]
    exact search_boolPattern r.stream _
  rw [extractBool, hsearch]
  cases r.stream <;> decide

/-- A request is read whatever its texts are: each field from its own text alone. -/
theorem parseJob_line (out : InferenceJob) :
    parseJob r.line out =
      (⟨ofBytes (unescape (insideText r.requestId)), ofBytes (unescape (insideText r.prompt)),
        r.stream⟩, none) := by
  have htype := extractString_type r (behindPrompt r)
  have hid := extractString_requestId r (behindPrompt r)
  have hprompt := extractString_prompt r (behindPrompt r)
  rw [← line_eq_through] at htype hid hprompt
  simp only [parseJob, htype, hid, hprompt, extractBool_stream, ne_eq, not_true_eq_false, if_false]

end Parsing

/-- What a user writes in a prompt, or sends as an `mfeId`, changes neither the request id nor the
stream flag that the worker reads, nor whether it accepts the request: these come from the
request's own fields. -/
theorem no_field_injection (requestId prompt mfeId prompt' mfeId' : JsString) (stream : Bool)
    (out : InferenceJob) :
    let job := parseJob (InferRequest.line ⟨requestId, prompt, mfeId, stream⟩) out
    let job' := parseJob (InferRequest.line ⟨requestId, prompt', mfeId', stream⟩) out
    job.1.requestId = job'.1.requestId ∧ job.1.stream = job'.1.stream ∧ job.2 = job'.2 ∧
      job.1.requestId = ofBytes (unescape (insideText requestId)) ∧
      job.1.prompt = ofBytes (unescape (insideText prompt)) ∧ job.1.stream = stream := by
  dsimp only
  rw [parseJob_line, parseJob_line]
  exact ⟨rfl, rfl, rfl, rfl, rfl, rfl⟩

/-- The control characters that are written as an escape the worker does not know. -/
def Lost (c : Char) : Prop := c.toNat < 0x20 ∧ c.toNat ≠ 0x0A ∧ c.toNat ≠ 0x0D ∧ c.toNat ≠ 0x09

instance (c : Char) : Decidable (Lost c) := inferInstanceAs (Decidable (_ ∧ _ ∧ _ ∧ _))

theorem unescape_plain {x : Bytes} (hx : ∀ b ∈ x, b ≠ 0x5C) : unescape x = x := by
  fun_induction unescape x with
  | case1 => rfl
  | case2 b => rfl
  | case3 c rest => exact absurd rfl (hx 0x5C List.mem_cons_self)
  | case4 b c rest hb ih => rw [ih fun d hd => hx d (List.mem_cons_of_mem b hd)]

/-- What the worker makes of the ASCII characters: each comes through, or leaves the letter of its
escape. -/
theorem unescape_pointText_ascii : ∀ n : Fin 0x80,
    (¬ (n.val < 0x20 ∧ n.val ≠ 0x0A ∧ n.val ≠ 0x0D ∧ n.val ≠ 0x09) →
      unescape (pointText n) = [.ofNat n]) ∧
    (n.val < 0x20 ∧ n.val ≠ 0x0A ∧ n.val ≠ 0x0D ∧ n.val ≠ 0x09 →
      (unescape (pointText n)).head? ∈ [some 0x62, some 0x66, some 0x75]) := by
  decide +kernel

variable {c : Char}

/-- A character that is not lost comes through. -/
theorem unescape_pointText (hc : ¬ Lost c) : unescape (pointText c.toNat) = encodeChar c := by
  by_cases hlow : c.toNat < 0x80
  · rw [(unescape_pointText_ascii ⟨c.toNat, hlow⟩).1 hc, encodeChar, if_pos hlow]
  · have hvalid := Utf8.toNat_valid c
    have hpoint : quotePoint c.toNat = Utf8.encodePoint c.toNat := by
      rw [quotePoint, if_neg (by omega), if_neg (by omega), if_neg (by omega), if_neg (by omega),
        if_neg (by omega), if_neg (by omega), if_neg (by omega), if_neg (by omega)]
    rw [pointText, hpoint, toBytes_char]
    apply unescape_plain
    rintro b hb rfl
    exact absurd (Utf8.le_encodeChar (Nat.not_lt.mp hlow) _ hb) (by decide)

/-- A lost character comes out as something else. -/
theorem unescape_pointText_lost (hc : Lost c) :
    ∃ b x, unescape (pointText c.toNat) = b :: x ∧ b ≠ .ofNat c.toNat := by
  have hlow := hc.1
  have hletter := (unescape_pointText_ascii ⟨c.toNat, Nat.lt_trans hc.1 (by decide)⟩).2 hc
  cases htext : unescape (pointText c.toNat) with
  | nil => simp [htext] at hletter
  | cons b x =>
      refine ⟨b, x, rfl, ?_⟩
      rintro rfl
      simp only [htext, List.head?_cons, List.mem_cons, Option.some_inj, List.not_mem_nil,
        or_false] at hletter
      have hnat : (UInt8.ofNat c.toNat).toNat = c.toNat := Utf8.toNat_ofNat_lt (by omega)
      obtain heq | heq | heq := hletter
      · rw [heq] at hnat
        exact absurd hlow (by rw [← hnat]; decide)
      · rw [heq] at hnat
        exact absurd hlow (by rw [← hnat]; decide)
      · rw [heq] at hnat
        exact absurd hlow (by rw [← hnat]; decide)

/-- Which texts the worker reads as they are. -/
theorem unescape_insideText_iff (t : List Char) :
    unescape (insideText (utf16 t)) = encode t ↔ ∀ c ∈ t, ¬ Lost c := by
  have hinside : ∀ c ∈ t, Inside (pointText c.toNat) := fun c _ =>
    inside_pointText (by have := Utf8.toNat_valid c; omega)
  rw [insideText_utf16, unescape_flatMap hinside]
  clear hinside
  induction t with
  | nil => simp [encode]
  | cons c t ih =>
      rw [List.flatMap_cons, encode, List.flatMap_cons, ← encode, List.forall_mem_cons]
      by_cases hc : Lost c
      · refine iff_of_false (fun heq => ?_) fun h => h.1 hc
        have hlow : c.toNat < 0x80 := Nat.lt_trans hc.1 (by decide)
        obtain ⟨b, x, htext, hne⟩ := unescape_pointText_lost hc
        rw [htext, encodeChar, if_pos hlow] at heq
        exact hne (List.cons.inj heq).1
      · rw [unescape_pointText hc, List.append_cancel_left_eq]
        exact ⟨fun h => ⟨hc, ih.mp h⟩, fun h => ih.mpr h.2⟩

theorem ofBytes_inj {x y : Bytes} (h : ofBytes x = ofBytes y) : x = y := by
  have hchar : ∀ b : UInt8, (Char.ofNat b.toNat).toNat.toUInt8 = b := by
    intro b
    have hvalid : b.toNat.isValidChar := .inl (Nat.lt_trans b.toNat_lt (by decide))
    rw [Utf8.toNat_charOfNat hvalid]
    exact UInt8.ofNat_toNat
  have hback : ∀ x : Bytes, bytes (ofBytes x) = x := by
    intro x
    rw [bytes, ofBytes, String.toList_ofList, List.map_map]
    exact (List.map_congr_left fun b _ => hchar b).trans (List.map_id x)
  rw [← hback x, h, hback y]

/-- The worker reads a request exactly as it was made, unless its id or its prompt has a control
character other than the line feed, the carriage return and the tab. -/
theorem request_frame_round_trip_iff (requestId prompt mfeId : List Char) (stream : Bool)
    (out : InferenceJob) :
    parseJob (InferRequest.line ⟨utf16 requestId, utf16 prompt, utf16 mfeId, stream⟩) out =
        (⟨ofBytes (encode requestId), ofBytes (encode prompt), stream⟩, none) ↔
      (∀ c ∈ requestId, ¬ Lost c) ∧ ∀ c ∈ prompt, ¬ Lost c := by
  rw [parseJob_line, ← unescape_insideText_iff, ← unescape_insideText_iff]
  constructor
  · intro h
    have hjob := InferenceJob.mk.inj (congrArg Prod.fst h)
    exact ⟨ofBytes_inj hjob.1, ofBytes_inj hjob.2.1⟩
  · rintro ⟨hid, hprompt⟩
    rw [hid, hprompt]

/-- A prompt of one backspace is read as the letter `b`. -/
theorem not_request_frame_round_trip :
    parseJob (InferRequest.line ⟨utf16 ['r'], utf16 [Char.ofNat 0x08], utf16 ['m'], false⟩)
        ⟨"", "", false⟩ = (⟨"r", "b", false⟩, none) ∧
      ofBytes (encode [Char.ofNat 0x08]) ≠ "b" := by
  decide

end ServeInfer.ApiServer
