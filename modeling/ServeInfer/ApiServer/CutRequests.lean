import ServeInfer.ApiServer.RequestFrames

/-!
# Requests cut short

The worker leaves its read loop at a newline, at the end of the stream or with a
mebibyte in hand, and parses what it has in any case. A request that is cut behind
its prompt has all the fields the parser asks for and is executed, with the stream
flag it may have lost read as false.
-/

namespace ServeInfer.ApiServer

open InferenceWorker Json

variable {reads : List ReadResult} {payload out : Bytes} {job : InferenceJob}

/-- What the client has written on the socket, as far as it was read. -/
def ReadResult.bytes : ReadResult → Bytes
  | .data chunk => chunk
  | _ => []

def sent (reads : List ReadResult) : Bytes := reads.flatMap ReadResult.bytes

/-- A job is executed only where the worker has received the client's line up to its newline, and
with what the parser reads in that whole line. -/
def OnlyWholeFrames (reads : List ReadResult) : Prop :=
  ∀ job, handleClient reads = .executed job → ∃ line rest more,
    readLoop [] reads = .complete (line ++ 0x0A :: rest) ∧
      sent reads = line ++ 0x0A :: rest ++ more ∧ 0x0A ∉ line ∧
      parseJob line ⟨"", "", false⟩ = (job, none)

/-- The text has the three strings the parser asks for. -/
structure Parsable (text : Bytes) : Prop where
  type : extractString text (bytes "type") = some (bytes "infer")
  requestId : (extractString text (bytes "requestId")).isSome = true
  prompt : (extractString text (bytes "prompt")).isSome = true

/-- Such a text is what the parser accepts. -/
theorem parsable_iff (text : Bytes) (out : InferenceJob) :
    Parsable text ↔ ∃ job, parseJob text out = (job, none) := by
  rw [parseJob]
  constructor
  · rintro ⟨htype, hid, hprompt⟩
    obtain ⟨requestId, hid⟩ := Option.isSome_iff_exists.mp hid
    obtain ⟨prompt, hprompt⟩ := Option.isSome_iff_exists.mp hprompt
    simp [htype, hid, hprompt]
  · rintro ⟨job, hjob⟩
    split at hjob
    · cases hjob
    · rename_i htype
      split at hjob
      · cases hjob
      · rename_i requestId hid
        dsimp only at hjob
        split at hjob
        · cases hjob
        · rename_i prompt hprompt
          exact ⟨not_not.mp htype, by rw [hid]; rfl, by rw [hprompt]; rfl⟩

/-- The payload is what was in hand, and a first part of what is read. -/
theorem readLoop_prefix (h : readLoop payload reads = .complete out) :
    ∃ more, payload ++ sent reads = out ++ more := by
  fun_induction readLoop payload reads with
  | case1 payload => cases h
  | case2 payload reads ih => exact ih h
  | case3 payload reads => cases h
  | case4 payload reads =>
      cases h
      exact ⟨_, rfl⟩
  | case5 payload chunk reads hleave =>
      cases h
      exact ⟨sent reads, (List.append_assoc _ _ _).symm⟩
  | case6 payload chunk reads hstay ih =>
      obtain ⟨more, hmore⟩ := ih h
      exact ⟨more, (List.append_assoc _ _ _).symm.trans hmore⟩

theorem lineOf_of_notMem (h : 0x0A ∉ payload) : lineOf payload = payload := by
  rw [lineOf, List.takeWhile_eq_self_iff]
  intro b hb
  rw [decide_eq_true_iff]
  rintro rfl
  exact h hb

/-- A payload with a newline begins with a whole line. -/
theorem exists_line (h : 0x0A ∈ payload) :
    ∃ rest, payload = lineOf payload ++ 0x0A :: rest ∧ 0x0A ∉ lineOf payload := by
  have hnot : 0x0A ∉ lineOf payload := by
    intro hmem
    simpa using List.mem_takeWhile_imp hmem
  have hsplit : lineOf payload ++ payload.dropWhile (· ≠ 0x0A) = payload :=
    List.takeWhile_append_dropWhile
  cases hdrop : payload.dropWhile (· ≠ 0x0A) with
  | nil =>
      rw [hdrop, List.append_nil] at hsplit
      exact absurd (by rwa [hsplit]) hnot
  | cons b rest =>
      have hb : ¬ decide (b ≠ 0x0A) = true := by
        have hhead := List.head?_dropWhile_not (fun b : UInt8 => decide (b ≠ 0x0A)) payload
        rw [hdrop] at hhead
        simpa using hhead
      obtain rfl : b = 0x0A := by simpa using hb
      rw [hdrop] at hsplit
      exact ⟨rest, hsplit.symm, hnot⟩

theorem handleClient_complete (h : readLoop [] reads = .complete payload) :
    (∃ job, handleClient reads = .executed job) ↔ Parsable (lineOf payload) := by
  rw [parsable_iff (lineOf payload) ⟨"", "", false⟩, handleClient, h]
  dsimp only
  split
  · rename_i job heq
    exact iff_of_true ⟨job, rfl⟩ ⟨job, heq⟩
  · rename_i job error heq
    refine iff_of_false (by simp) ?_
    rintro ⟨job', heq'⟩
    rw [heq] at heq'
    cases heq'

/-- A whole line is all that is executed exactly where what is cut off lacks a string. -/
theorem onlyWholeFrames_iff (reads : List ReadResult) :
    OnlyWholeFrames reads ↔
      ∀ payload, readLoop [] reads = .complete payload → 0x0A ∉ payload → ¬ Parsable payload := by
  constructor
  · intro hwhole payload hread hcut hparsable
    rw [← lineOf_of_notMem hcut] at hparsable
    obtain ⟨job, hjob⟩ := (handleClient_complete hread).mpr hparsable
    obtain ⟨line, rest, more, hline, -⟩ := hwhole job hjob
    obtain rfl := Reading.complete.inj (hread.symm.trans hline)
    exact hcut (List.mem_append_right _ List.mem_cons_self)
  · intro hcut job hjob
    cases hread : readLoop [] reads with
    | waiting payload =>
        rw [handleClient, hread] at hjob
        cases hjob
    | failed =>
        rw [handleClient, hread] at hjob
        cases hjob
    | complete payload =>
        by_cases hnewline : 0x0A ∈ payload
        · obtain ⟨rest, hpayload, hline⟩ := exists_line hnewline
          obtain ⟨more, hmore⟩ := readLoop_prefix hread
          refine ⟨lineOf payload, rest, more, ?_, ?_, hline, ?_⟩
          · rw [← hpayload]
          · rw [← hpayload]
            exact hmore
          · rw [handleClient, hread] at hjob
            dsimp only at hjob
            split at hjob
            · rename_i job' heq
              cases hjob
              exact heq
            · cases hjob
        · have hparsable := (handleClient_complete hread).mp ⟨job, hjob⟩
          rw [lineOf_of_notMem hnewline] at hparsable
          exact absurd hparsable (hcut payload hread hnewline)

section Frames

variable (r : InferRequest)

/-- The members before the prompt. -/
def beforePrompt : Bytes :=
  0x7B :: (marks.field (bytes "type") (marks.quoted (bytes "infer")) ++ [marks.comma] ++
    (marks.field (bytes "requestId") (marks.quoted (insideText r.requestId)) ++ [marks.comma]))

/-- The prompt's member. -/
def promptField : Bytes := marks.field (bytes "prompt") (marks.quoted (insideText r.prompt))

theorem throughPrompt_eq (rest : Bytes) :
    throughPrompt r rest = beforePrompt r ++ promptField r ++ rest := by
  simp [throughPrompt, beforePrompt, promptField, member, Marks.field, Marks.quoted, marks]

/-- Before its member no prompt is found. -/
theorem skips_beforePrompt (rest : Bytes) :
    (marks.stringPattern (bytes "prompt")).Skips (beforePrompt r) rest := by
  obtain ⟨htype, hid, hprompt, -, -⟩ := isKey_names
  have hcaptures : ∀ s, (marks.keyRegex (bytes "prompt")).runs s = [] →
      (marks.stringPattern (bytes "prompt")).captures s = [] :=
    fun s => Marks.captures_stringPattern s
  refine Regex.Pattern.Skips.cons ?_ (hcaptures _ (Marks.keyRegex_other (by decide) _))
  refine Regex.Pattern.Skips.append ?_ ?_
  · exact Marks.skips_field_quoted hcaptures hprompt.marks htype.marks (by decide)
      (inside_marks inside_infer) _
  · exact Marks.skips_field_quoted hcaptures hprompt.marks hid.marks (by decide)
      (inside_marks (inside_insideText _)) _

/-- A request that is cut before the closing quote of its prompt has none. -/
theorem extractString_prompt_cut {k : ℕ} (hk : k < (throughPrompt r []).length) :
    extractString (r.line.take k) (bytes "prompt") = none := by
  obtain ⟨-, -, hprompt, -, -⟩ := isKey_names
  have htext : throughPrompt r [] = beforePrompt r ++ promptField r := by
    rw [throughPrompt_eq, List.append_nil]
  rw [htext] at hk
  have htake : r.line.take k = (beforePrompt r ++ promptField r).take k := by
    rw [line_eq_through, throughPrompt_eq, List.take_append_of_le_length hk.le]
  rw [extractString, stringPattern_eq, htake, Option.map_eq_none_iff]
  refine Marks.search_stringPattern_cut (y := behindPrompt r) hprompt.marks
    (inside_marks (inside_insideText _)) (skips_beforePrompt r _) (List.take_prefix _ _) ?_
  rw [List.length_take]
  exact lt_of_le_of_lt (Nat.min_le_left _ _) hk

/-- At which places a request can be cut and is executed all the same: behind its prompt. -/
theorem parsable_take_iff (k : ℕ) :
    Parsable (r.line.take k) ↔ (throughPrompt r []).length ≤ k := by
  constructor
  · intro hparsable
    by_contra hk
    have hsome := hparsable.prompt
    rw [extractString_prompt_cut r (Nat.not_le.mp hk)] at hsome
    cases hsome
  · intro hk
    have htake : r.line.take k =
        throughPrompt r ((behindPrompt r).take (k - (throughPrompt r []).length)) := by
      rw [line_eq_through, throughPrompt_eq r (behindPrompt r), throughPrompt_eq, throughPrompt_eq,
        List.append_nil, List.take_append, List.take_of_length_le (by
          rwa [throughPrompt_eq, List.append_nil] at hk)]
    rw [htake]
    refine ⟨extractString_type r _, ?_, ?_⟩
    · rw [extractString_requestId]
      rfl
    · rw [extractString_prompt]
      rfl

/-- A request is written on one line. -/
theorem notMem_line : 0x0A ∉ r.line := by
  have hprintable : ∀ b ∈ r.line, 0x20 ≤ b := by
    have hmember : ∀ (name : String) (x rest : Bytes), (∀ b ∈ bytes name, 0x20 ≤ b) →
        (∀ b ∈ x, 0x20 ≤ b) → (∀ b ∈ rest, 0x20 ≤ b) → ∀ b ∈ member name x rest, 0x20 ≤ b := by
      intro name x rest hname hx hrest b hb
      simp only [member, List.mem_cons, List.mem_append] at hb
      obtain rfl | hb | rfl | rfl | rfl | hb | rfl | rfl | hb := hb
      · decide
      · exact hname b hb
      · decide
      · decide
      · decide
      · exact hx b hb
      · decide
      · decide
      · exact hrest b hb
    have hflag : ∀ b ∈ 0x22 :: (bytes "stream" ++ 0x22 :: 0x3A :: (flagText r.stream ++ [0x7D])),
        (0x20 : UInt8) ≤ b := by
      cases r.stream <;> decide
    rw [line_eq, List.forall_mem_cons]
    refine ⟨by decide, hmember _ _ _ (by decide) (by decide) ?_⟩
    refine hmember _ _ _ (by decide) (printable_insideText _) ?_
    refine hmember _ _ _ (by decide) (printable_insideText _) ?_
    exact hmember _ _ _ (by decide) (printable_insideText _) hflag
  exact fun h => absurd (hprintable _ h) (by decide)

end Frames

/-- A request that is cut is not executed exactly where it is cut before the closing quote of its
prompt. -/
theorem onlyWholeFrames_cut_iff (r : InferRequest) {k : ℕ}
    (hread : readLoop [] reads = .complete (r.line.take k)) :
    OnlyWholeFrames reads ↔ k < (throughPrompt r []).length := by
  have hcut : 0x0A ∉ r.line.take k := fun h => notMem_line r (List.mem_of_mem_take h)
  rw [onlyWholeFrames_iff, hread, ← Nat.not_le, ← parsable_take_iff]
  constructor
  · intro hnot
    exact hnot _ rfl hcut
  · rintro hnot payload heq -
    obtain rfl := Reading.complete.inj heq
    exact hnot

/-- On every stream of bytes, whatever its reads and its end, only whole lines are executed exactly
where a text that was cut off lacks a string the parser asks for: a request, where it is cut before
the closing quote of its prompt. -/
theorem only_whole_frames_iff (reads : List ReadResult) :
    (OnlyWholeFrames reads ↔
      ∀ payload, readLoop [] reads = .complete payload → 0x0A ∉ payload → ¬ Parsable payload) ∧
    ∀ (r : InferRequest) (k : ℕ), readLoop [] reads = .complete (r.line.take k) →
      (OnlyWholeFrames reads ↔ k < (throughPrompt r []).length) :=
  ⟨onlyWholeFrames_iff reads, fun r _ hread => onlyWholeFrames_cut_iff r hread⟩

/-- A streaming request of the id `r` and the prompt `p`. -/
def streamingRequest : InferRequest := ⟨units "r", units "p", units "m", true⟩

/-- The stream ends in the key of the request's flag, and a buffered inference is started. -/
theorem not_only_whole_frames :
    handleClient [.data (streamingRequest.line.take 60), .eof] = .executed ⟨"r", "p", false⟩ ∧
      ¬ OnlyWholeFrames [.data (streamingRequest.line.take 60), .eof] := by
  have hcut : readLoop [] [.data (streamingRequest.line.take 60), .eof] =
      .complete (streamingRequest.line.take 60) := by decide
  refine ⟨by decide, ?_⟩
  rw [onlyWholeFrames_cut_iff streamingRequest hcut]
  decide

end ServeInfer.ApiServer
