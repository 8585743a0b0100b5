import ServeInfer.ApiServer.ReplyReading

/-!
# The round trip of a reply's frame

Each line that a worker writes is to be one line of JSON whose fields are the texts
it was written of. The escape has no case for the control characters that C has no
short name for, and the device's name gets none at all.
-/

namespace ServeInfer.ApiServer

open InferenceWorker Utf8

/-- A frame of Unicode texts is one line, and `JSON.parse` makes of it what it was made of. -/
def RoundTrips (f : Frame (List Char)) : Prop :=
  ∃ line, (f.map encode).json = line ++ [0x0A] ∧ 0x0A ∉ line ∧
    Json.parse (Json.trim (decode line)) = some (f.map utf16).object

/-- No run is failed for the frame's JSON. -/
def NeverBadJson (f : Frame (List Char)) : Prop :=
  ∀ (o : Options) (s : WorkerPool) (r : ℕ) (run run' : Run), s.threw = false →
    s.runs[r]? = some run → run.Fresh → (s.receive o r [(f.map encode).json]).runs[r]? = some run' →
      ∀ err, run'.outcome = some (.rejected err) → err.code ≠ .workerBadJson

section Lines

variable {f : Frame Bytes} {x : Bytes}

theorem exists_json (f : Frame Bytes) : ∃ line, f.json = line ++ [0x0A] := by
  have hquote : bytes "\"\x7d\n" = bytes "\"\x7d" ++ [0x0A] := by decide
  have hbrace : bytes "\x7d\n" = bytes "\x7d" ++ [0x0A] := by decide
  cases f with
  | token requestId piece => exact ⟨_, by rw [Frame.json, hquote, ← List.append_assoc]⟩
  | error requestId message => exact ⟨_, by rw [Frame.json, hquote, ← List.append_assoc]⟩
  | result requestId text device degradedReason =>
      exact ⟨_, by rw [Frame.json, hbrace, ← List.append_assoc]⟩

theorem decode_line (h : f.json = x ++ [0x0A]) : decode x = (f.escaped.map decode).rawLine := by
  have hjson := Frame.decode_json f []
  have hx : decode (x ++ [0x0A]) = decode x ++ [0x0A] := decode_append_ascii_cons x (by decide) []
  rw [List.append_nil, h, hx] at hjson
  exact List.append_cancel_right hjson

/-- A line of bytes is one line when its text is. -/
theorem newline_notMem_of_decode (h : (0x0A : CodeUnit) ∉ decode x) : (0x0A : UInt8) ∉ x := by
  intro hmem
  exact h ((mirrors_decode x).mem hmem (by decide))

theorem map_utf16 (f : Frame (List Char)) : (f.map encode).map decode = f.map utf16 := by
  cases f with
  | token requestId piece => simp [Frame.map, decode_encode]
  | error requestId message => simp [Frame.map, decode_encode]
  | result requestId text device degradedReason =>
      cases degradedReason <;> simp [Frame.map, decode_encode]

theorem roundTrips_iff (f : Frame (List Char)) :
    RoundTrips f ↔ (f.map encode).rough = false ∧ (f.map encode).plainDevice = true := by
  rw [← Frame.parse_iff, map_utf16]
  have htrim : Json.trim ((f.map encode).escaped.map decode).rawLine =
      ((f.map encode).escaped.map decode).rawLine := Json.trim_objectText _
  constructor
  · rintro ⟨line, hjson, -, hparse⟩
    rw [decode_line hjson, htrim] at hparse
    exact hparse
  · intro hparse
    obtain ⟨line, hjson⟩ := exists_json (f.map encode)
    refine ⟨line, hjson, ?_, ?_⟩
    · apply newline_notMem_of_decode
      rw [decode_line hjson]
      have hclean := (Frame.parse_iff (f.map encode)).mp (by rw [map_utf16]; exact hparse)
      rw [Frame.map_decode_escaped hclean.2]
      exact Frame.newline_notMem_line _
    · rw [decode_line hjson, htrim]
      exact hparse

/-- A frame that reads is answered with no error about its JSON. -/
theorem code_replied (run : Run) (g : Frame JsString) {err : WorkerPoolError}
    (h : (run.replied [(false, g)]).2 = some (.rejected err)) : err.code ≠ .workerBadJson := by
  cases g with
  | token requestId piece => cases h
  | result requestId text device degradedReason => cases h
  | error requestId message =>
      cases h
      show ErrorCode.workerError ≠ .workerBadJson
      decide

theorem neverBadJson (f : Frame (List Char)) (hrough : (f.map encode).rough = false)
    (hdevice : (f.map encode).plainDevice = true) : NeverBadJson f := by
  intro o s r run run' hlive hr hrun hr' err herr
  have hreply : IsReply [f.map encode] := by simp [IsReply]
  have hwritten : written [f.map encode] = (f.map encode).json := List.append_nil _
  have hlines : decodeAll [(f.map encode).json] =
      Lines.joined 0x0A ([(f.map encode).map decode].map Frame.line) := by
    have hdecode := decode_written (List.forall_mem_singleton.mpr hdevice)
    rw [hwritten] at hdecode
    rw [decodeAll_singleton, hdecode]
    rfl
  obtain ⟨run'', hr'', -, hout⟩ := WorkerPool.receive_reply (o := o) hr hlive hrun hreply
    (.cons (Frame.alike_decode _) .nil) hlines
  obtain rfl := Option.some.inj (hr''.symm.trans hr')
  have hmarked : Run.marked [f.map encode] [(f.map encode).map decode] =
      [(false, (f.map encode).map decode)] := by
    rw [← hrough]
    rfl
  rw [hmarked, herr] at hout
  exact code_replied run _ hout.symm

end Lines

/-- A frame of Unicode texts makes its round trip, and never fails a request for its JSON, exactly
when no text has a control character without a short escape, and its device needs no escape. -/
theorem reply_frame_round_trip_iff (f : Frame (List Char)) :
    RoundTrips f ∧ NeverBadJson f ↔
      (f.map encode).rough = false ∧ (f.map encode).plainDevice = true := by
  rw [roundTrips_iff]
  constructor
  · rintro ⟨hclean, -⟩
    exact hclean
  · intro hclean
    exact ⟨hclean, neverBadJson f hclean.1 hclean.2⟩

/-- A token with a control character of the model's does not make it. -/
theorem not_reply_frame_round_trip :
    ¬ ∀ f : Frame (List Char), RoundTrips f ∧ NeverBadJson f := by
  intro h
  obtain ⟨hround, -⟩ := h (.token ['r'] ['\x01'])
  have hclean := (roundTrips_iff _).mp hround
  exact absurd hclean.1 (by decide)

end ServeInfer.ApiServer
