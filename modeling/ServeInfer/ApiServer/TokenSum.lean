import Mathlib.Data.List.GetD
import ServeInfer.ApiServer.Chunking
import ServeInfer.InferenceWorker.Answers

/-!
# What the tokens add up to

A streaming caller has the tokens one by one and then the text of the result. Each
token is decoded on its own and the result's text as a whole, so they are the same
where no piece of the engine ends inside a character.
-/

namespace ServeInfer.ApiServer

open InferenceWorker Device Utf8

/-- The text a frame is there for. -/
def body {α : Type} : Frame α → α
  | .token _ piece => piece
  | .result _ text _ _ => text
  | .error _ message => message

/-- What the tokens say, or what the other frames say. -/
def said {α : Type} (token : Bool) (frames : List (Frame (List α))) : List α :=
  frames.flatMap fun f => if f.isToken = token then body f else []

/-- The pieces of what the tokens say, or of what the other frames say, as the frames and the
chunks cut it. -/
def saidPieces (token : Bool) : List (Frame Bytes) → List Bytes → List Bytes
  | [], _ => []
  | f :: fs, chunks =>
      (if f.isToken = token then (fieldPieces f.escaped.segments chunks).getD 1 [] else []) ++
        saidPieces token fs (dropBytes f.json.length chunks)

/-- The caller has a result, whose text is what it has been handed token by token. -/
def AddsUp (s : WorkerPool) (r : ℕ) : Prop :=
  ∃ tokens result, heard s r = some (tokens, some (.resolved result)) ∧
    tokens.flatten = result.text

theorem said_cons {α : Type} (token : Bool) (f : Frame (List α)) (fs : List (Frame (List α))) :
    said token (f :: fs) = (if f.isToken = token then body f else []) ++ said token fs :=
  List.flatMap_cons

section Pieces

variable {f : Frame Bytes} {fs : List (Frame Bytes)} {gs : List (Frame JsString)}
  {chunks : List Bytes} {y : Bytes}

theorem decodeAll_append (chunks chunks' : List Bytes) :
    decodeAll (chunks ++ chunks') = decodeAll chunks ++ decodeAll chunks' := by
  rw [decodeAll, List.map_append, List.flatten_append]
  rfl

theorem jsonEscape_append (x y : Bytes) : jsonEscape (x ++ y) = jsonEscape x ++ jsonEscape y :=
  List.flatMap_append

theorem getD_texts {α : Type} (f : Frame (List α)) : f.texts.getD 1 [] = body f := by
  cases f <;> rfl

theorem body_map {α β : Type} (φ : α → β) (f : Frame α) : body (f.map φ) = φ (body f) := by
  cases f <;> rfl

theorem body_escaped (f : Frame Bytes) : body f.escaped = jsonEscape (body f) := by
  cases f <;> rfl

/-- The pieces make up what is said. -/
theorem flatten_saidPieces (token : Bool) (h : chunks.flatten = written fs ++ y) :
    (saidPieces token fs chunks).flatten = jsonEscape (said token fs) := by
  induction fs generalizing chunks with
  | nil => rfl
  | cons f fs ih =>
      rw [written_cons, List.append_assoc] at h
      have hweave : chunks.flatten = weave f.escaped.segments f.closing ++ (written fs ++ y) := by
        rw [← Frame.json_eq_weave, h]
      have hrest : (dropBytes f.json.length chunks).flatten = written fs ++ y := by
        rw [flatten_dropBytes, h, List.drop_left]
      have hbody : ((fieldPieces f.escaped.segments chunks).getD 1 []).flatten =
          jsonEscape (body f) := by
        have hfields := congrArg (·.getD 1 []) (flatten_fieldPieces hweave)
        simp only [Frame.snd_segments, getD_texts, body_escaped] at hfields
        rw [← hfields]
        exact (List.getD_map _ [] List.flatten).symm
      rw [saidPieces, List.flatten_append, ih hrest, said_cons, jsonEscape_append]
      congr 1
      split
      · exact hbody
      · rfl

/-- What is said, in code units, comes of the pieces. -/
theorem said_eq (token : Bool) (hgs : List.Forall₂ (Frame.Alike Mirrors) fs gs)
    (hpieces : gs.map (fun g => (g.map fun s => s.flatMap escapeUnit).texts) =
      (replyPieces fs chunks).map (List.map decodeAll)) :
    (said token gs).flatMap escapeUnit = decodeAll (saidPieces token fs chunks) := by
  induction hgs generalizing chunks with
  | nil => rfl
  | @cons f g fs gs hfg hrest ih =>
      obtain ⟨hg, hgs⟩ := List.cons.inj hpieces
      have hbody : (body g).flatMap escapeUnit =
          decodeAll ((fieldPieces f.escaped.segments chunks).getD 1 []) := by
        have htexts := congrArg (·.getD 1 []) hg
        simp only [getD_texts, body_map] at htexts
        rw [← List.getD_map _ [] decodeAll]
        exact htexts
      rw [saidPieces, decodeAll_append, ← ih hgs, said_cons, List.flatMap_append,
        isToken_of_alike hfg]
      congr 1
      split
      · exact hbody
      · rfl

end Pieces

section Streams

variable {run : Run} {requestId text device : Bytes} {tokens : List Bytes} {reason : Option Bytes}
  {gs : List (Frame JsString)}

/-- A reply of tokens and a result. -/
def streamed (requestId : Bytes) (tokens : List Bytes) (text device : Bytes)
    (reason : Option Bytes) : List (Frame Bytes) :=
  tokens.map (Frame.token requestId) ++ [.result requestId text device reason]

theorem isReply_streamed (requestId : Bytes) (tokens : List Bytes) (text device : Bytes)
    (reason : Option Bytes) : IsReply (streamed requestId tokens text device reason) := by
  rw [IsReply, streamed, List.dropLast_concat]
  intro f hf
  obtain ⟨token, -, rfl⟩ := List.mem_map.mp hf
  rfl

theorem said_streamed (requestId : Bytes) (tokens : List Bytes) (text device : Bytes)
    (reason : Option Bytes) :
    said true (streamed requestId tokens text device reason) = tokens.flatten ∧
      said false (streamed requestId tokens text device reason) = text := by
  induction tokens with
  | nil => exact ⟨rfl, List.append_nil text⟩
  | cons token tokens ih =>
      obtain ⟨htokens, htext⟩ := ih
      constructor
      · rw [List.flatten_cons, ← htokens]
        rfl
      · exact htext

/-- A run that can read the whole reply resolves to what the result says, and if it streams, it
hands on what the tokens say. -/
theorem replied_streamed (run : Run)
    (hgs : List.Forall₂ (Frame.Alike Mirrors) (streamed requestId tokens text device reason) gs)
    (hclean : ∀ f ∈ streamed requestId tokens text device reason, f.rough = false) :
    ∃ ts result, run.replied (Run.marked (streamed requestId tokens text device reason) gs) =
        (ts, some (.resolved result)) ∧ (run.stream = true → ts.flatten = said true gs) ∧
      result.text = said false gs := by
  induction tokens generalizing gs with
  | nil =>
      obtain _ | ⟨hlast, _ | _⟩ := hgs
      have hrough := hclean _ (List.mem_singleton_self _)
      cases hlast with
      | @result _ _ _ text' _ device' _ reason' hid htext hdevice hreason =>
          refine ⟨[], Run.answered text' device' reason', ?_, fun _ => rfl,
            (List.append_nil text').symm⟩
          show run.replied [(Frame.rough _, _)] = _
          rw [hrough]
          rfl
  | cons token tokens ih =>
      obtain _ | ⟨hfirst, hrest⟩ := hgs
      obtain ⟨hrough, hclean⟩ := List.forall_mem_cons.mp hclean
      obtain ⟨ts, result, hreplied, htokens, htext⟩ := ih hrest hclean
      cases hfirst with
      | @token _ _ _ piece hid hpiece =>
          refine ⟨if run.stream then piece :: ts else ts, result, ?_, ?_, htext⟩
          · show run.replied ((Frame.rough _, _) ::
              Run.marked (streamed requestId tokens text device reason) _) = _
            rw [hrough, Run.replied, hreplied]
          · intro hstream
            rw [if_pos hstream, List.flatten_cons, htokens hstream]
            rfl

variable {o : Options} {s : WorkerPool} {r : ℕ} {chunks : List Bytes}

/-- The tokens add up exactly when the whole reply can be read and the pieces of the tokens come out
as the same text as the pieces of the result. -/
theorem addsUp_iff (hr : s.runs[r]? = some run) (hlive : s.threw = false) (hrun : run.Fresh)
    (hstream : run.stream = true) {fs : List (Frame Bytes)}
    (hfs : fs = streamed requestId tokens text device reason)
    (hdevice : ∀ f ∈ fs, f.plainDevice = true) (hchunks : chunks.flatten = written fs) :
    AddsUp (s.receive o r chunks) r ↔ (∀ f ∈ fs, f.rough = false) ∧
      decodeAll (saidPieces true fs chunks) = decodeAll (saidPieces false fs chunks) := by
  have hreply : IsReply fs := by
    rw [hfs]
    exact isReply_streamed _ _ _ _ _
  obtain ⟨gs, hgs, hpieces, hlines⟩ := decodeAll_whole hdevice hchunks
  obtain ⟨run', hr', htokens, houtcome⟩ :=
    WorkerPool.receive_reply (o := o) hr hlive hrun hreply hgs hlines
  have hheard : heard (s.receive o r chunks) r = some (run.replied (Run.marked fs gs)) := by
    rw [heard, hr', Option.map_some, htokens, houtcome]
  rw [← said_eq true hgs hpieces, ← said_eq false hgs hpieces]
  constructor
  · rintro ⟨ts, result, hsettled, hsum⟩
    rw [hheard, Option.some.injEq] at hsettled
    have hclean : ∀ f ∈ fs, f.rough = false := by
      intro f hf
      by_contra hrough
      rw [Bool.not_eq_false] at hrough
      have hrejected := congrArg Prod.snd hsettled
      rw [Run.replied_rough hreply hgs ⟨f, hf, hrough⟩] at hrejected
      cases hrejected
    refine ⟨hclean, ?_⟩
    subst hfs
    obtain ⟨ts', result', hreplied, hts, hresult⟩ := replied_streamed run hgs hclean
    obtain ⟨rfl, hsame⟩ := Prod.mk.inj (hsettled.symm.trans hreplied)
    cases hsame
    rw [← hts hstream, ← hresult, hsum]
  · rintro ⟨hclean, hsame⟩
    subst hfs
    obtain ⟨ts, result, hreplied, hts, hresult⟩ := replied_streamed run hgs hclean
    refine ⟨ts, result, hheard.trans (congrArg some hreplied), ?_⟩
    rw [hts hstream, hresult]
    exact flatMap_escapeUnit_inj hsame

end Streams

section Answers

variable {env : RouterEnv} {w : Worker} {job : InferenceJob} {a : Device.Attempt} {o : Options}
  {s : WorkerPool} {r : ℕ} {run : Run} {chunks : List Bytes} {text : List Char}

/-- Two cuttings of one text, of which one cuts no character, come out as the same text exactly
when the other one cuts none either. -/
theorem decodeAll_eq_iff {pieces whole : List Bytes}
    (hpieces : pieces.flatten = jsonEscape (encode text))
    (hwhole : whole.flatten = jsonEscape (encode text)) (hvalid : ∀ piece ∈ whole, Valid piece) :
    decodeAll pieces = decodeAll whole ↔ ∀ piece ∈ pieces, Valid piece := by
  obtain ⟨t, ht⟩ := valid_jsonEscape text
  have hpieces' := decode_pieces_iff (hpieces.trans ht)
  have hwhole' := (decode_pieces_iff (hwhole.trans ht)).mpr hvalid
  rw [← hpieces', ← hwhole']
  rfl

/-- However the engine cuts a valid text into pieces and the socket the reply into chunks: where no
chunk cuts a character of the result, the tokens of a stream that one tier has served add up to its
text exactly when no text of the reply keeps a control character and no piece of a token ends
inside a character. Over all chunks, it is when the tokens' pieces come out as the result's do. -/
theorem tokens_add_up_iff (hw : w.Started env) (hstream : job.stream = true)
    (hconcat : ∀ m tier, Concatenates (env.execute m tier job.prompt true))
    (hsingle : (w.answer env job).2.router.attempts = w.router.attempts ++ [a])
    (htext : bytes (String.join a.tokens) = encode text)
    (hr : s.runs[r]? = some run) (hlive : s.threw = false) (hrun : run.Fresh)
    (hrunStream : run.stream = true) (hchunks : chunks.flatten = written (w.answer env job).1) :
    ((∀ piece ∈ saidPieces false (w.answer env job).1 chunks, Valid piece) →
      (AddsUp (s.receive o r chunks) r ↔ (∀ f ∈ (w.answer env job).1, f.rough = false) ∧
        ∀ piece ∈ saidPieces true (w.answer env job).1 chunks, Valid piece)) ∧
    (AddsUp (s.receive o r chunks) r ↔ (∀ f ∈ (w.answer env job).1, f.rough = false) ∧
      decodeAll (saidPieces true (w.answer env job).1 chunks) =
        decodeAll (saidPieces false (w.answer env job).1 chunks)) := by
  obtain ⟨device, reason, hanswer⟩ := Worker.answer_of_single hconcat hstream hsingle
  have hframes : (w.answer env job).1 = streamed (bytes job.requestId) (a.tokens.map bytes)
      (bytes (String.join a.tokens)) device reason := by
    rw [hanswer, streamed, List.map_map]
    rfl
  have hiff := addsUp_iff (o := o) hr hlive hrun hrunStream hframes (hw.plainDevice job) hchunks
  refine ⟨fun hvalid => ?_, hiff⟩
  have hpieces := fun token => flatten_saidPieces token (y := [])
    (hchunks.trans (List.append_nil (written (w.answer env job).1)).symm)
  obtain ⟨htokens, hresult⟩ := said_streamed (bytes job.requestId) (a.tokens.map bytes)
    (bytes (String.join a.tokens)) device reason
  rw [← hframes] at htokens hresult
  rw [← bytes_join, htext] at htokens
  rw [hiff, decodeAll_eq_iff ((hpieces true).trans (congrArg jsonEscape htokens))
    ((hpieces false).trans (congrArg jsonEscape (hresult.trans htext))) hvalid]

end Answers

section Example

/-- Cpu answers every prompt with the pieces. -/
def cpuEmits (pieces : List String) : RouterEnv where
  clock _ := 0
  probe _ := probeDevice fun _ => .available
  executable _ _ := true
  execute _ _ _ := runThroughEngine (some ⟨pieces, String.join pieces, .none, ""⟩)
  onFallback _ _ _ := true
  hookReads _ := []

/-- A worker with cpu alone. -/
def cpuWorker : Worker where
  router := { Router.ofOrder ["cpu"] 60000 0 with backends := ["cpu"] }

def streamJob : InferenceJob where
  requestId := "a"
  prompt := "p"
  stream := true

theorem started_cpuWorker (pieces : List String) : cpuWorker.Started (cpuEmits pieces) :=
  ⟨⟨fun _ _ => .available, fun _ => rfl⟩, ["cpu"], 60000, 0, [.registerBackend "cpu"], rfl⟩

/-- The attempt on cpu. -/
def cpuAttempt (pieces : List String) : Device.Attempt where
  index := 0
  tier := "cpu"
  call := some 0
  tokens := pieces
  execution := { text := String.join pieces }

/-- An é that is emitted at once. -/
theorem tokens_add_up_whole : AddsUp (streaming.receive anyOptions 0
    [written (cpuWorker.answer (cpuEmits ["Ã©"]) streamJob).1]) 0 := by
  have hpieces : ∀ token, saidPieces token (cpuWorker.answer (cpuEmits ["Ã©"]) streamJob).1
      [written (cpuWorker.answer (cpuEmits ["Ã©"]) streamJob).1] = [encode ['é']] := by
    decide +kernel
  have hvalid : ∀ token, ∀ piece ∈ saidPieces token
      (cpuWorker.answer (cpuEmits ["Ã©"]) streamJob).1
      [written (cpuWorker.answer (cpuEmits ["Ã©"]) streamJob).1], Valid piece := by
    intro token piece hpiece
    rw [hpieces] at hpiece
    exact ⟨['é'], List.mem_singleton.mp hpiece⟩
  exact ((tokens_add_up_iff (a := cpuAttempt ["Ã©"])
    (started_cpuWorker ["Ã©"]) rfl (fun _ _ => concatenates_runThroughEngine _)
    (by decide +kernel) (show bytes (String.join ["Ã©"]) = encode ['é'] by decide)
    (o := anyOptions) (s := streaming) (r := 0) rfl rfl
    fresh_connected rfl (by simp)).1 (hvalid false)).mpr ⟨by decide +kernel, hvalid true⟩

/-- An é that is emitted in two pieces is two replacement characters as tokens. -/
theorem not_tokens_add_up : ¬ ∀ (env : RouterEnv) (w : Worker) (job : InferenceJob)
    (a : Device.Attempt) (text : List Char) (o : Options) (s : WorkerPool) (r : ℕ) (run : Run)
    (chunks : List Bytes),
      w.Started env → job.stream = true →
      (∀ m tier, Concatenates (env.execute m tier job.prompt true)) →
      (w.answer env job).2.router.attempts = w.router.attempts ++ [a] → a.execution.ok = true →
      bytes (String.join a.tokens) = encode text →
      s.runs[r]? = some run → s.threw = false → run.Fresh → run.stream = true →
      chunks.flatten = written (w.answer env job).1 → AddsUp (s.receive o r chunks) r := by
  intro h
  obtain ⟨ts, result, hheard, hsum⟩ := h (cpuEmits ["Ã", "©"]) cpuWorker streamJob
    (cpuAttempt ["Ã", "©"]) ['é'] anyOptions streaming 0 connected
    [written (cpuWorker.answer (cpuEmits ["Ã", "©"]) streamJob).1]
    (started_cpuWorker ["Ã", "©"]) rfl (fun _ _ => concatenates_runThroughEngine _)
    (by decide +kernel) rfl (by decide) rfl rfl fresh_connected rfl (by simp)
  have hout : heard (streaming.receive anyOptions 0
      [written (cpuWorker.answer (cpuEmits ["Ã", "©"]) streamJob).1]) 0 =
        some ([[0xFFFD], [0xFFFD]],
          some (.resolved (Run.answered [0xE9] (Json.units "cpu") none))) := by
    decide +kernel
  rw [hout] at hheard
  cases hheard
  exact absurd hsum (by decide)

end Example

end ServeInfer.ApiServer
