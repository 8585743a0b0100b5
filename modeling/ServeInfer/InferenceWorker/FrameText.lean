import Mathlib.Data.List.Forall2
import ServeInfer.InferenceWorker.EscapedText
import ServeInfer.Lib.Lines

/-!
# What a frame's line says

A frame's line as literals with its escaped texts between them, and what
`JSON.parse` makes of the line in code units, whichever units its texts came out as.
-/

namespace ServeInfer.InferenceWorker

open Utf8 Json

namespace Frame

variable {α β : Type}

def map (f : α → β) : Frame α → Frame β
  | .token requestId piece => .token (f requestId) (f piece)
  | .result requestId text device degradedReason =>
      .result (f requestId) (f text) (f device) (degradedReason.map f)
  | .error requestId message => .error (f requestId) (f message)

/-- The texts of a frame in the order of its line. -/
def texts : Frame α → List α
  | .token requestId piece => [requestId, piece]
  | .result requestId text device degradedReason =>
      requestId :: text :: device :: degradedReason.toList
  | .error requestId message => [requestId, message]

/-- Frames of one kind whose texts correspond. -/
inductive Alike (R : α → β → Prop) : Frame α → Frame β → Prop
  | token {i i' x x'} (hid : R i i') (hpiece : R x x') : Alike R (.token i x) (.token i' x')
  | result {i i' x x' d d' r r'} (hid : R i i') (htext : R x x') (hdevice : R d d')
      (hreason : Option.Rel R r r') : Alike R (.result i x d r) (.result i' x' d' r')
  | error {i i' x x'} (hid : R i i') (hmessage : R x x') : Alike R (.error i x) (.error i' x')

/-- What comes before each text of a line. -/
def segments : Frame α → List (Bytes × α)
  | .token requestId piece =>
      [(bytes "\x7b\"type\":\"token\",\"requestId\":\"", requestId),
        (bytes "\",\"token\":\"", piece)]
  | .result requestId text device degradedReason =>
      (bytes "\x7b\"type\":\"result\",\"requestId\":\"", requestId) ::
        (bytes "\",\"text\":\"", text) :: (bytes "\",\"device\":\"", device) ::
          (degradedReason.map fun reason =>
            (bytes "\",\"degraded\":true,\"degradedReason\":\"", reason)).toList
  | .error requestId message =>
      [(bytes "\x7b\"type\":\"error\",\"requestId\":\"", requestId),
        (bytes "\",\"error\":\"", message)]

/-- What comes after the last text. -/
def closing : Frame α → Bytes
  | .result _ _ _ none => bytes "\",\"degraded\":false\x7d\n"
  | _ => bytes "\"\x7d\n"

/-- The texts as the line has them: the device is written as it is. -/
def escaped : Frame Bytes → Frame Bytes
  | .result requestId text device degradedReason =>
      .result (jsonEscape requestId) (jsonEscape text) device (degradedReason.map jsonEscape)
  | f => f.map jsonEscape

/-- The device's name needs no escape. -/
def plainDevice : Frame Bytes → Bool
  | .result _ _ device _ => device.all plain
  | _ => true

/-- The members of a frame's object, by what stands for a text and for a flag. -/
def members (text : List CodeUnit → β) (flag : Bool → β) :
    Frame (List CodeUnit) → List (List CodeUnit × β)
  | .token requestId piece =>
      [(units "type", text (units "token")), (units "requestId", text requestId),
        (units "token", text piece)]
  | .result requestId answer device none =>
      [(units "type", text (units "result")), (units "requestId", text requestId),
        (units "text", text answer), (units "device", text device), (units "degraded", flag false)]
  | .result requestId answer device (some reason) =>
      [(units "type", text (units "result")), (units "requestId", text requestId),
        (units "text", text answer), (units "device", text device), (units "degraded", flag true),
        (units "degradedReason", text reason)]
  | .error requestId message =>
      [(units "type", text (units "error")), (units "requestId", text requestId),
        (units "error", text message)]

/-- What `JSON.parse` is to make of a frame with these texts. -/
def object (f : Frame (List CodeUnit)) : Json := .obj (f.members .str .bool)

/-- The line of a frame whose texts need no escape, in code units. -/
def rawLine (f : Frame (List CodeUnit)) : List CodeUnit :=
  objectText (f.members quoted fun b => units (toString b))

/-- The line of a frame with these texts. -/
def line (f : Frame (List CodeUnit)) : List CodeUnit :=
  (f.map fun s => s.flatMap escapeUnit).rawLine

section Lines

variable {R : α → β → Prop} {f : Frame Bytes} {g : Frame (List CodeUnit)} {y : Bytes}
  {chunks : List Bytes}

/-- A frame's line: its escaped texts, and what stands around them. -/
theorem json_eq_weave (f : Frame Bytes) : f.json = weave f.escaped.segments f.closing := by
  cases f with
  | token requestId piece => simp [json, map, escaped, segments, closing, weave]
  | error requestId message => simp [json, map, escaped, segments, closing, weave]
  | result requestId text device degradedReason =>
      have hmid : bytes "\",\"device\":\"" = bytes "\"" ++ bytes ",\"device\":\"" := by decide
      cases degradedReason with
      | none =>
          have hend : bytes "\",\"degraded\":false\x7d\n" =
              bytes "\",\"degraded\":" ++ (bytes "false" ++ bytes "\x7d\n") := by decide
          simp [json, deviceResultFields, escaped, segments, closing, weave, hmid, hend]
      | some reason =>
          have hreason : bytes "\",\"degraded\":true,\"degradedReason\":\"" =
              bytes "\",\"degraded\":" ++ (bytes "true" ++ bytes ",\"degradedReason\":\"") := by
            decide
          have hend : bytes "\"\x7d\n" = bytes "\"" ++ bytes "\x7d\n" := by decide
          simp [json, deviceResultFields, escaped, segments, closing, weave, hmid, hreason, hend]

theorem escaped_eq_map (h : f.plainDevice = true) : f.escaped = f.map jsonEscape := by
  cases f with
  | result requestId text device degradedReason =>
      have hdevice : jsonEscape device = device := jsonEscape_plain h
      simp [escaped, map, hdevice]
  | _ => rfl

theorem isLiteral_segments (f : Frame α) : ∀ e ∈ f.segments, IsLiteral e.1 := by
  cases f with
  | token requestId piece =>
      simp only [segments, List.forall_mem_cons]
      exact ⟨by decide, by decide, by simp⟩
  | error requestId message =>
      simp only [segments, List.forall_mem_cons]
      exact ⟨by decide, by decide, by simp⟩
  | result requestId text device degradedReason =>
      cases degradedReason with
      | none =>
          simp only [segments, List.forall_mem_cons]
          exact ⟨by decide, by decide, by decide, by simp⟩
      | some reason =>
          simp only [segments, List.forall_mem_cons]
          exact ⟨by decide, by decide, by decide, by
            simp only [Option.map_some, Option.toList_some, List.mem_singleton, forall_eq]
            decide⟩

theorem isLiteral_closing (f : Frame α) : IsLiteral f.closing := by
  have hfine : IsLiteral (bytes "\",\"degraded\":false\x7d\n") := by decide
  have hquote : IsLiteral (bytes "\"\x7d\n") := by decide
  cases f with
  | result requestId text device degradedReason =>
      cases degradedReason with
      | none => exact hfine
      | some reason => exact hquote
  | token requestId piece => exact hquote
  | error requestId message => exact hquote

theorem snd_segments (f : Frame α) : f.segments.map Prod.snd = f.texts := by
  cases f with
  | result requestId text device degradedReason => cases degradedReason <;> rfl
  | _ => rfl

theorem texts_map (φ : α → β) (f : Frame α) : (f.map φ).texts = f.texts.map φ := by
  cases f with
  | result requestId text device degradedReason => cases degradedReason <;> rfl
  | _ => rfl

theorem closing_escaped (f : Frame Bytes) : f.escaped.closing = f.closing := by
  cases f with
  | result requestId text device degradedReason => cases degradedReason <;> rfl
  | _ => rfl

theorem alike_map {φ : α → β} (f : Frame α) (h : ∀ x ∈ f.texts, R x (φ x)) :
    f.Alike R (f.map φ) := by
  cases f with
  | token requestId piece =>
      simp only [texts, List.forall_mem_cons] at h
      exact .token h.1 h.2.1
  | error requestId message =>
      simp only [texts, List.forall_mem_cons] at h
      exact .error h.1 h.2.1
  | result requestId text device degradedReason =>
      simp only [texts, List.forall_mem_cons] at h
      obtain ⟨hid, htext, hdevice, hreason⟩ := h
      cases degradedReason with
      | none => exact .result hid htext hdevice .none
      | some reason => exact .result hid htext hdevice (.some (hreason reason (by simp)))

/-- A list that corresponds to a frame's texts makes up a frame. -/
theorem exists_alike {f : Frame α} {ys : List β} (h : List.Forall₂ R f.texts ys) :
    ∃ g, f.Alike R g ∧ g.texts = ys := by
  cases f with
  | token requestId piece =>
      obtain _ | ⟨hid, _ | ⟨hpiece, _ | _⟩⟩ := h
      exact ⟨.token _ _, .token hid hpiece, rfl⟩
  | error requestId message =>
      obtain _ | ⟨hid, _ | ⟨hmessage, _ | _⟩⟩ := h
      exact ⟨.error _ _, .error hid hmessage, rfl⟩
  | result requestId text device degradedReason =>
      obtain _ | ⟨hid, _ | ⟨htext, _ | ⟨hdevice, hreason⟩⟩⟩ := h
      cases degradedReason with
      | none =>
          cases hreason
          exact ⟨.result _ _ _ none, .result hid htext hdevice .none, rfl⟩
      | some reason =>
          obtain _ | ⟨hreason, _ | _⟩ := hreason
          exact ⟨.result _ _ _ (some _), .result hid htext hdevice (.some hreason), rfl⟩

section Literals

/-- A line's literals in code units: what opens it, what stands between two texts, what ends it. -/
theorem opening_token : (bytes "\x7b\"type\":\"token\",\"requestId\":\"").map unit =
    0x7B :: quote :: (units "type" ++ quote :: 0x3A :: quote ::
      (units "token" ++ quote :: 0x2C :: quote ::
        (units "requestId" ++ [quote, 0x3A, quote]))) := by decide

theorem opening_result : (bytes "\x7b\"type\":\"result\",\"requestId\":\"").map unit =
    0x7B :: quote :: (units "type" ++ quote :: 0x3A :: quote ::
      (units "result" ++ quote :: 0x2C :: quote ::
        (units "requestId" ++ [quote, 0x3A, quote]))) := by decide

theorem opening_error : (bytes "\x7b\"type\":\"error\",\"requestId\":\"").map unit =
    0x7B :: quote :: (units "type" ++ quote :: 0x3A :: quote ::
      (units "error" ++ quote :: 0x2C :: quote ::
        (units "requestId" ++ [quote, 0x3A, quote]))) := by decide

theorem between_token : (bytes "\",\"token\":\"").map unit =
    quote :: 0x2C :: quote :: (units "token" ++ [quote, 0x3A, quote]) := by decide

theorem between_text : (bytes "\",\"text\":\"").map unit =
    quote :: 0x2C :: quote :: (units "text" ++ [quote, 0x3A, quote]) := by decide

theorem between_device : (bytes "\",\"device\":\"").map unit =
    quote :: 0x2C :: quote :: (units "device" ++ [quote, 0x3A, quote]) := by decide

theorem between_reason : (bytes "\",\"degraded\":true,\"degradedReason\":\"").map unit =
    quote :: 0x2C :: quote :: (units "degraded" ++ quote :: 0x3A ::
      (units "true" ++ 0x2C :: quote :: (units "degradedReason" ++ [quote, 0x3A, quote]))) := by
  decide

theorem between_error : (bytes "\",\"error\":\"").map unit =
    quote :: 0x2C :: quote :: (units "error" ++ [quote, 0x3A, quote]) := by decide

theorem ending : (bytes "\"\x7d\n").map unit = [quote, 0x7D, 0x0A] := by decide

theorem ending_fine : (bytes "\",\"degraded\":false\x7d\n").map unit =
    quote :: 0x2C :: quote :: (units "degraded" ++ quote :: 0x3A ::
      (units "false" ++ [0x7D, 0x0A])) := by decide

end Literals

/-- The literals of a frame with the texts of another one of its kind between them. -/
theorem weaveUnits_segments {R : Bytes → List CodeUnit → Prop} (h : f.Alike R g) :
    weaveUnits f.segments g.texts f.closing = g.rawLine ++ [0x0A] := by
  have htrue : toString true = "true" := rfl
  have hfalse : toString false = "false" := rfl
  cases h with
  | token hid hpiece =>
      simp only [segments, texts, closing, weaveUnits, opening_token, between_token, ending,
        rawLine, members, objectText, membersText, memberText, quoted, List.cons_append,
        List.append_assoc, List.nil_append]
  | error hid hmessage =>
      simp only [segments, texts, closing, weaveUnits, opening_error, between_error, ending,
        rawLine, members, objectText, membersText, memberText, quoted, List.cons_append,
        List.append_assoc, List.nil_append]
  | result hid htext hdevice hreason =>
      cases hreason with
      | none =>
          simp only [segments, texts, Option.map_none, Option.toList_none, closing, weaveUnits,
            opening_result, between_text, between_device, ending_fine, rawLine, members,
            objectText, membersText, memberText, quoted, hfalse, List.cons_append,
            List.append_assoc, List.nil_append]
      | some hreason =>
          simp only [segments, texts, Option.map_some, Option.toList_some, closing, weaveUnits,
            opening_result, between_text, between_device, between_reason, ending, rawLine,
            members, objectText, membersText, memberText, quoted, htrue, List.cons_append,
            List.append_assoc, List.nil_append]

/-- Escaped texts that come in pieces stand for what mirrors the texts. -/
theorem exists_mirrors {texts : List Bytes} {pieces : List (List Bytes)}
    (h : pieces.map List.flatten = texts.map jsonEscape) :
    ∃ ss, ss.map (fun s => s.flatMap escapeUnit) = pieces.map decodeAll ∧
      List.Forall₂ Mirrors texts ss := by
  induction texts generalizing pieces with
  | nil =>
      obtain rfl : pieces = [] := List.map_eq_nil_iff.mp h
      exact ⟨[], rfl, .nil⟩
  | cons x texts ih =>
      cases pieces with
      | nil => cases h
      | cons piece pieces =>
          obtain ⟨hpiece, hrest⟩ := List.cons.inj h
          obtain ⟨ss, hss, hmirrors⟩ := ih hrest
          have hmirror : Mirrors (jsonEscape x) (decodeAll piece) := hpiece ▸ mirrors_decodeAll piece
          obtain ⟨s, hs, hx⟩ := unescape_of_mirrors hmirror
          refine ⟨s :: ss, ?_, .cons hx hmirrors⟩
          rw [List.map_cons, List.map_cons, hss, hs]

/-- A frame that comes in pieces: its line, whatever its texts came out as. -/
theorem decodeAll_json (hdevice : f.plainDevice = true) (h : chunks.flatten = f.json ++ y) :
    ∃ g, f.Alike Mirrors g ∧
      (g.map fun s => s.flatMap escapeUnit).texts =
        (fieldPieces f.escaped.segments chunks).map decodeAll ∧
      decodeAll chunks = g.line ++ 0x0A :: decodeAll (dropBytes f.json.length chunks) := by
  have hjson := json_eq_weave f
  have hweave : chunks.flatten = weave f.escaped.segments f.closing ++ y := by
    rw [← hjson, h]
  have hpieces := flatten_fieldPieces hweave
  rw [snd_segments, escaped_eq_map hdevice, texts_map] at hpieces
  obtain ⟨ss, hss, hmirrors⟩ := exists_mirrors hpieces
  obtain ⟨g, hg, rfl⟩ := exists_alike hmirrors
  rw [← texts_map] at hss
  have hkind : f.escaped.Alike (fun _ _ => True) (g.map fun s => s.flatMap escapeUnit) := by
    rw [escaped_eq_map hdevice]
    cases hg with
    | token => exact .token trivial trivial
    | error => exact .error trivial trivial
    | result _ _ _ hreason =>
        cases hreason with
        | none => exact .result trivial trivial trivial .none
        | some => exact .result trivial trivial trivial (.some trivial)
  rw [← escaped_eq_map hdevice] at hss
  refine ⟨g, hg, hss, ?_⟩
  calc decodeAll chunks
      = weaveUnits f.escaped.segments
          ((fieldPieces f.escaped.segments chunks).map decodeAll) f.closing ++
            decodeAll (dropBytes (weave f.escaped.segments f.closing).length chunks) :=
        decodeAll_weave (isLiteral_segments _) (isLiteral_closing f) hweave
    _ = (g.line ++ [0x0A]) ++ decodeAll (dropBytes f.json.length chunks) := by
        rw [← hss, ← closing_escaped, weaveUnits_segments hkind, closing_escaped, ← hjson, line]
    _ = g.line ++ 0x0A :: decodeAll (dropBytes f.json.length chunks) := by
        rw [List.append_assoc, List.singleton_append]

/-- A frame that comes at once. -/
theorem decode_json (f : Frame Bytes) (y : Bytes) :
    decode (f.json ++ y) = (f.escaped.map decode).rawLine ++ 0x0A :: decode y := by
  have hfields : f.escaped.segments.map (fun e => decode e.2) = (f.escaped.map decode).texts := by
    rw [texts_map, ← snd_segments, List.map_map]
    rfl
  have hkind := alike_map (R := fun _ _ => True) (φ := decode) f.escaped fun _ _ => trivial
  rw [json_eq_weave, decode_weave (isLiteral_segments _) (isLiteral_closing f), hfields,
    ← closing_escaped, weaveUnits_segments hkind, List.append_assoc, List.singleton_append]

theorem map_decode_escaped (hdevice : f.plainDevice = true) :
    (f.escaped.map decode).rawLine = (f.map decode).line := by
  have hmap : f.escaped.map decode = (f.map decode).map fun s => s.flatMap escapeUnit := by
    rw [escaped_eq_map hdevice]
    cases f with
    | result requestId text device degradedReason =>
        cases degradedReason <;> simp [map, decode_jsonEscape]
    | _ => simp [map, decode_jsonEscape]
  rw [hmap, line]

end Lines

section Reading

variable {f : Frame Bytes} {g : Frame (List CodeUnit)}

theorem members_eq_map (text : List CodeUnit → β) (flag : Bool → β) (g : Frame (List CodeUnit)) :
    g.members text flag = (g.members Sum.inl Sum.inr).map fun e => (e.1, e.2.elim text flag) := by
  cases g with
  | result requestId answer device degradedReason => cases degradedReason <;> rfl
  | _ => rfl

/-- The keys, and the texts that do not come from the frame, need no escape. -/
theorem member_cases (g : Frame (List CodeUnit)) : ∀ e ∈ g.members Sum.inl Sum.inr,
    (∀ c ∈ e.1, Plain c) ∧
      ∀ s, e.2 = .inl s → (∀ c ∈ s, ¬ RawUnit c) ∨ s ∈ g.texts := by
  have hkey : ∀ word ∈ ["type", "requestId", "token", "text", "device", "degraded",
      "degradedReason", "error"], ∀ c ∈ units word, Plain c := by decide
  have htype : ∀ word ∈ ["token", "result", "error"], ∀ c ∈ units word, ¬ RawUnit c := by decide
  cases g with
  | token requestId piece =>
      simp only [members, List.forall_mem_cons]
      exact ⟨⟨hkey "type" (by simp), fun s hs => .inl (Sum.inl.inj hs ▸ htype "token" (by simp))⟩,
        ⟨hkey "requestId" (by simp), fun s hs => .inr (by simp [texts, Sum.inl.inj hs])⟩,
        ⟨hkey "token" (by simp), fun s hs => .inr (by simp [texts, Sum.inl.inj hs])⟩, by simp⟩
  | error requestId message =>
      simp only [members, List.forall_mem_cons]
      exact ⟨⟨hkey "type" (by simp), fun s hs => .inl (Sum.inl.inj hs ▸ htype "error" (by simp))⟩,
        ⟨hkey "requestId" (by simp), fun s hs => .inr (by simp [texts, Sum.inl.inj hs])⟩,
        ⟨hkey "error" (by simp), fun s hs => .inr (by simp [texts, Sum.inl.inj hs])⟩, by simp⟩
  | result requestId answer device degradedReason =>
      cases degradedReason with
      | none =>
          simp only [members, List.forall_mem_cons]
          exact ⟨⟨hkey "type" (by simp),
              fun s hs => .inl (Sum.inl.inj hs ▸ htype "result" (by simp))⟩,
            ⟨hkey "requestId" (by simp), fun s hs => .inr (by simp [texts, Sum.inl.inj hs])⟩,
            ⟨hkey "text" (by simp), fun s hs => .inr (by simp [texts, Sum.inl.inj hs])⟩,
            ⟨hkey "device" (by simp), fun s hs => .inr (by simp [texts, Sum.inl.inj hs])⟩,
            ⟨hkey "degraded" (by simp), fun s hs => by cases hs⟩, by simp⟩
      | some reason =>
          simp only [members, List.forall_mem_cons]
          exact ⟨⟨hkey "type" (by simp),
              fun s hs => .inl (Sum.inl.inj hs ▸ htype "result" (by simp))⟩,
            ⟨hkey "requestId" (by simp), fun s hs => .inr (by simp [texts, Sum.inl.inj hs])⟩,
            ⟨hkey "text" (by simp), fun s hs => .inr (by simp [texts, Sum.inl.inj hs])⟩,
            ⟨hkey "device" (by simp), fun s hs => .inr (by simp [texts, Sum.inl.inj hs])⟩,
            ⟨hkey "degraded" (by simp), fun s hs => by cases hs⟩,
            ⟨hkey "degradedReason" (by simp), fun s hs => .inr (by simp [texts, Sum.inl.inj hs])⟩,
            by simp⟩

/-- Every text of a frame is in its object. -/
theorem exists_member {s : List CodeUnit} (hs : s ∈ g.texts) :
    ∃ e ∈ g.members Sum.inl Sum.inr, e.2 = .inl s := by
  cases g with
  | token requestId piece =>
      simp only [texts, List.mem_cons, List.not_mem_nil, or_false] at hs
      obtain rfl | rfl := hs <;> simp [members]
  | error requestId message =>
      simp only [texts, List.mem_cons, List.not_mem_nil, or_false] at hs
      obtain rfl | rfl := hs <;> simp [members]
  | result requestId answer device degradedReason =>
      cases degradedReason with
      | none =>
          simp only [texts, Option.toList_none, List.mem_cons, List.not_mem_nil, or_false] at hs
          obtain rfl | rfl | rfl := hs <;> simp [members]
      | some reason =>
          simp only [texts, Option.toList_some, List.mem_cons, List.not_mem_nil, or_false] at hs
          obtain rfl | rfl | rfl | rfl := hs <;> simp [members]

/-- The text of a member. -/
def written (v : List CodeUnit ⊕ Bool) : List CodeUnit :=
  v.elim (fun s => quoted (s.flatMap escapeUnit)) fun b => units (toString b)

theorem line_eq (g : Frame (List CodeUnit)) : g.line =
    objectText ((g.members Sum.inl Sum.inr).map fun e => (e.1, written e.2)) := by
  have htoken : (units "token").flatMap escapeUnit = units "token" := by decide
  have hresult : (units "result").flatMap escapeUnit = units "result" := by decide
  have herror : (units "error").flatMap escapeUnit = units "error" := by decide
  cases g with
  | token requestId piece => simp [line, rawLine, map, members, written, htoken]
  | error requestId message => simp [line, rawLine, map, members, written, herror]
  | result requestId answer device degradedReason =>
      cases degradedReason <;> simp [line, rawLine, map, members, written, hresult]

/-- A member without raw controls reads as itself. -/
theorem readsMember_written {e : List CodeUnit × (List CodeUnit ⊕ Bool)} (hkey : ∀ c ∈ e.1, Plain c)
    (hraw : ∀ s, e.2 = .inl s → ∀ c ∈ s, ¬ RawUnit c) :
    ReadsMember (e.1, written e.2) (e.1, e.2.elim Json.str Json.bool) := by
  refine ⟨rfl, hkey, ?_⟩
  obtain ⟨key, s | b⟩ := e
  · exact reads_quoted (readsInside_escapeUnit (hraw s rfl))
  · exact reads_bool b

/-- A line without raw controls reads as the frame. -/
theorem parse_line (hg : ∀ s ∈ g.texts, ∀ c ∈ s, ¬ RawUnit c) : parse g.line = some g.object := by
  have hmembers := member_cases g
  have hobject : g.object =
      .obj ((g.members Sum.inl Sum.inr).map fun e => (e.1, e.2.elim Json.str Json.bool)) :=
    congrArg Json.obj (members_eq_map Json.str Json.bool g)
  rw [line_eq, hobject]
  apply parse_objectText
  · rw [List.forall₂_map_left_iff, List.forall₂_map_right_iff, List.forall₂_same]
    intro e he
    obtain ⟨hkey, hword⟩ := hmembers e he
    apply readsMember_written hkey
    intro s hs
    exact (hword s hs).elim id (hg s)
  · cases g with
    | result requestId text device degradedReason => cases degradedReason <;> simp [members]
    | _ => simp [members]

/-- A line with a raw control cannot be read. -/
theorem parse_line_rough (hg : ∃ s ∈ g.texts, ∃ c ∈ s, RawUnit c) : parse g.line = none := by
  have hmembers := member_cases g
  rw [line_eq]
  apply parse_objectText_of_broken
  · intro m hm
    obtain ⟨e, he, rfl⟩ := List.mem_map.mp hm
    obtain ⟨hkey, -⟩ := hmembers e he
    by_cases hraw : ∃ s, e.2 = .inl s ∧ ∃ c ∈ s, RawUnit c
    · obtain ⟨s, hs, hbroken⟩ := hraw
      refine .inr ⟨hkey, ?_⟩
      rw [hs]
      exact broken_quoted (brokenInside_escapeUnit hbroken)
    · push Not at hraw
      exact .inl ⟨_, readsMember_written hkey hraw⟩
  · obtain ⟨s, hs, hbroken⟩ := hg
    obtain ⟨e, he, heq⟩ := exists_member hs
    obtain ⟨hkey, -⟩ := hmembers e he
    refine ⟨_, List.mem_map_of_mem he, hkey, ?_⟩
    rw [heq]
    exact broken_quoted (brokenInside_escapeUnit hbroken)

/-- A line is one line. -/
theorem newline_notMem_line (g : Frame (List CodeUnit)) : (0x0A : CodeUnit) ∉ g.line := by
  rw [line_eq]
  apply notMem_objectText (by decide)
  intro m hm
  obtain ⟨e, he, rfl⟩ := List.mem_map.mp hm
  constructor
  · intro hkey
    exact ((member_cases g e he).1 _ hkey).2.2 (by decide)
  · obtain ⟨key, s | b⟩ := e
    · intro hmem
      have htext : (0x0A : CodeUnit) ∈ s.flatMap escapeUnit := by
        simpa [written, quoted, show (0x0A : CodeUnit) ≠ quote by decide] using hmem
      obtain ⟨c, -, hc⟩ := List.mem_flatMap.mp htext
      exact ne_newline_of_mem_escapeUnit hc rfl
    · cases b <;> (show (0x0A : CodeUnit) ∉ units _; decide)

theorem trim_line (g : Frame (List CodeUnit)) : trim g.line = g.line := trim_objectText _

/-- A frame some of whose texts keep a control character in their escape. -/
def rough (f : Frame Bytes) : Bool := f.texts.any InferenceWorker.rough

theorem Alike.texts {R : α → β → Prop} {f : Frame α} {g : Frame β} (h : f.Alike R g) :
    List.Forall₂ R f.texts g.texts := by
  cases h with
  | token hid hpiece => exact .cons hid (.cons hpiece .nil)
  | error hid hmessage => exact .cons hid (.cons hmessage .nil)
  | result hid htext hdevice hreason =>
      cases hreason with
      | none => exact .cons hid (.cons htext (.cons hdevice .nil))
      | some hreason => exact .cons hid (.cons htext (.cons hdevice (.cons hreason .nil)))

theorem rough_iff_of_forall₂ {texts : List Bytes} {ss : List (List CodeUnit)}
    (h : List.Forall₂ Mirrors texts ss) :
    (∃ s ∈ ss, ∃ c ∈ s, RawUnit c) ↔ texts.any InferenceWorker.rough = true := by
  induction h with
  | nil => simp
  | @cons x s texts ss hx _ ih =>
      rw [List.any_cons, Bool.or_eq_true, ← ih, ← rough_iff_of_mirrors hx]
      simp only [List.mem_cons, exists_eq_or_imp]

/-- Whichever units its texts come out as, a line reads exactly when its frame is not rough. -/
theorem Alike.parse_line (h : f.Alike Mirrors g) :
    parse g.line = if f.rough then none else some g.object := by
  have hrough := rough_iff_of_forall₂ h.texts
  split
  · rename_i hf
    exact parse_line_rough (hrough.mpr hf)
  · rename_i hf
    apply Frame.parse_line
    intro s hs c hc hraw
    exact hf (hrough.mp ⟨s, hs, c, hc, hraw⟩)

theorem alike_decode (f : Frame Bytes) : f.Alike Mirrors (f.map decode) :=
  alike_map f fun x _ => mirrors_decode x

/-- The escape of a text between its quotes: it reads as the text, or a raw control breaks it. -/
theorem reads_or_broken (x : Bytes) :
    Reads (quoted (decode (jsonEscape x))) (.str (decode x)) ∨
      Broken (quoted (decode (jsonEscape x))) := by
  rw [decode_jsonEscape]
  by_cases hraw : ∃ c ∈ decode x, RawUnit c
  · exact .inr (broken_quoted (brokenInside_escapeUnit hraw))
  · push Not at hraw
    exact .inl (reads_quoted (readsInside_escapeUnit hraw))

/-- A line that has its device as it is, and reads as the frame, has a device that needs no
escape. -/
theorem plainDevice_of_parse (h : parse (f.escaped.map decode).rawLine = some (f.map decode).object) :
    f.plainDevice = true := by
  cases f with
  | token requestId piece => rfl
  | error requestId message => rfl
  | result requestId text device degradedReason =>
      have hkey : ∀ word ∈ ["type", "requestId", "text", "device"], ∀ c ∈ units word, Plain c := by
        decide
      have htype : ReadsMember (units "type", quoted (units "result"))
          (units "type", .str (units "result")) :=
        ⟨rfl, hkey "type" (by simp), reads_quoted (readsInside_self (by decide))⟩
      obtain ⟨m, ms', hline⟩ : ∃ m ms',
          ((Frame.result requestId text device degradedReason).escaped.map decode).rawLine =
            objectText ([(units "type", quoted (units "result")),
              (units "requestId", quoted (decode (jsonEscape requestId))),
              (units "text", quoted (decode (jsonEscape text)))] ++
              (units "device", quoted (decode device)) :: m :: ms') := by
        cases degradedReason with
        | none => exact ⟨_, _, rfl⟩
        | some reason => exact ⟨_, _, rfl⟩
      have hget : ∃ ns, ((Frame.result requestId text device degradedReason).map decode).object =
          .obj ns ∧ ns[3]? = some (units "device", .str (decode device)) := by
        cases degradedReason with
        | none => exact ⟨_, rfl, rfl⟩
        | some reason => exact ⟨_, rfl, rfl⟩
      obtain ⟨ns, hobject, hget⟩ := hget
      rw [hline, hobject] at h
      obtain hid | hid := reads_or_broken requestId
      · have hidMember : ReadsMember (units "requestId", quoted (decode (jsonEscape requestId)))
            (units "requestId", .str (decode requestId)) := ⟨rfl, hkey "requestId" (by simp), hid⟩
        obtain htext | htext := reads_or_broken text
        · have htextMember : ReadsMember (units "text", quoted (decode (jsonEscape text)))
              (units "text", .str (decode text)) := ⟨rfl, hkey "text" (by simp), htext⟩
          have hfront := List.Forall₂.cons htype (.cons hidMember (.cons htextMember .nil))
          have hplain := plain_of_parse_objectText hfront (hkey "device" (by simp)) h hget
          exact plain_of_mirrors (mirrors_decode device) hplain
        · have hmember : BrokenMember (units "text", quoted (decode (jsonEscape text))) :=
            ⟨hkey "text" (by simp), htext⟩
          have hfront := List.Forall₂.cons htype (.cons hidMember .nil)
          exact absurd ((parse_objectText_broken hfront hmember).symm.trans h) (by simp)
      · have hmember : BrokenMember (units "requestId", quoted (decode (jsonEscape requestId))) :=
          ⟨hkey "requestId" (by simp), hid⟩
        have hfront := List.Forall₂.cons htype .nil
        exact absurd ((parse_objectText_broken hfront hmember).symm.trans h) (by simp)

/-- A line reads as its frame exactly when no text is rough and the device needs no escape. -/
theorem parse_iff (f : Frame Bytes) :
    parse (f.escaped.map decode).rawLine = some (f.map decode).object ↔
      f.rough = false ∧ f.plainDevice = true := by
  constructor
  · intro h
    have hdevice := plainDevice_of_parse h
    rw [map_decode_escaped hdevice, (alike_decode f).parse_line] at h
    refine ⟨?_, hdevice⟩
    by_contra hrough
    rw [if_pos (by simpa using hrough)] at h
    cases h
  · rintro ⟨hrough, hdevice⟩
    rw [map_decode_escaped hdevice, (alike_decode f).parse_line, hrough]
    rfl

end Reading

end Frame

section Replies

open ServeInfer.InferenceWorker.Frame

variable {fs : List (Frame Bytes)} {chunks : List Bytes} {y : Bytes}

/-- The pieces that the chunks make of every text of every line. -/
def replyPieces : List (Frame Bytes) → List Bytes → List (List (List Bytes))
  | [], _ => []
  | f :: fs, chunks =>
      fieldPieces f.escaped.segments chunks :: replyPieces fs (dropBytes f.json.length chunks)

theorem written_cons (f : Frame Bytes) (fs : List (Frame Bytes)) :
    written (f :: fs) = f.json ++ written fs := List.flatMap_cons

/-- Frames that come in pieces: their lines, whatever their texts came out as. -/
theorem decodeAll_written (hdevice : ∀ f ∈ fs, f.plainDevice = true)
    (h : chunks.flatten = written fs ++ y) :
    ∃ gs, List.Forall₂ (Alike Mirrors) fs gs ∧
      gs.map (fun g => (g.map fun s => s.flatMap escapeUnit).texts) =
        (replyPieces fs chunks).map (List.map decodeAll) ∧
      decodeAll chunks = Lines.joined 0x0A (gs.map line) ++
        decodeAll (dropBytes (written fs).length chunks) := by
  induction fs generalizing chunks with
  | nil => exact ⟨[], .nil, rfl, (decodeAll_dropBytes_zero chunks).symm⟩
  | cons f fs ih =>
      rw [written_cons, List.append_assoc] at h
      obtain ⟨g, hg, hpieces, hline⟩ := decodeAll_json (hdevice f List.mem_cons_self) h
      have hrest : (dropBytes f.json.length chunks).flatten = written fs ++ y := by
        rw [flatten_dropBytes, h, List.drop_left]
      obtain ⟨gs, hgs, hmore, hlines⟩ :=
        ih (fun e he => hdevice e (List.mem_cons_of_mem f he)) hrest
      refine ⟨g :: gs, .cons hg hgs, ?_, ?_⟩
      · rw [List.map_cons, hpieces, hmore]
        rfl
      · rw [hline, hlines, dropBytes_dropBytes, written_cons, List.length_append, List.map_cons,
          Lines.joined_cons, List.append_assoc, List.cons_append]

/-- Nothing comes behind the frames. -/
theorem decodeAll_whole (hdevice : ∀ f ∈ fs, f.plainDevice = true)
    (h : chunks.flatten = written fs) :
    ∃ gs, List.Forall₂ (Alike Mirrors) fs gs ∧
      gs.map (fun g => (g.map fun s => s.flatMap escapeUnit).texts) =
        (replyPieces fs chunks).map (List.map decodeAll) ∧
      decodeAll chunks = Lines.joined 0x0A (gs.map line) := by
  have hall : chunks.flatten = written fs ++ [] := h.trans (List.append_nil _).symm
  obtain ⟨gs, hgs, hpieces, hlines⟩ := decodeAll_written hdevice hall
  have hbehind : decodeAll (dropBytes (written fs).length chunks) = [] := by
    apply decodeAll_of_flatten_nil
    rw [flatten_dropBytes, h, List.drop_length]
  rw [hbehind, List.append_nil] at hlines
  exact ⟨gs, hgs, hpieces, hlines⟩

/-- Frames that come at once. -/
theorem decode_written (hdevice : ∀ f ∈ fs, f.plainDevice = true) :
    decode (written fs) = Lines.joined 0x0A (fs.map fun f => (f.map decode).line) := by
  induction fs with
  | nil => rfl
  | cons f fs ih =>
      have hrest := ih fun e he => hdevice e (List.mem_cons_of_mem f he)
      rw [written_cons, decode_json, hrest, map_decode_escaped (hdevice f List.mem_cons_self),
        List.map_cons, Lines.joined_cons]

end Replies

end ServeInfer.InferenceWorker
