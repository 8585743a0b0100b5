import ServeInfer.ApiServer.ReplyReading

/-!
# A reply in chunks

Each chunk of a socket is decoded on its own, so what a run makes of a reply depends
on where the chunks end: a character of a text that the run reads may not be cut.
-/

namespace ServeInfer.ApiServer

open InferenceWorker Utf8

/-- The pieces of the texts that a run reads: every text of a frame but the request's id, of the
tokens only in a streaming run, and nothing from a frame on that cannot be read. -/
def readPieces (stream : Bool) : List (Frame Bytes) → List Bytes → List Bytes
  | [], _ => []
  | f :: fs, chunks =>
      if f.rough then []
      else if f.isToken then
        (if stream then (fieldPieces f.escaped.segments chunks).tail.flatten else []) ++
          readPieces stream fs (dropBytes f.json.length chunks)
      else (fieldPieces f.escaped.segments chunks).tail.flatten

/-- What the caller of a run has of it: the tokens, and how the promise was settled. -/
def heard (s : WorkerPool) (r : ℕ) : Option (List JsString × Option Outcome) :=
  (s.runs[r]?).map fun run => (run.tokens, run.outcome)

section Texts

variable {F : List (Frame (List Char))} {ts : List (List Char)} {ss : List JsString}
  {pieces : List (List Bytes)} {chunks : List Bytes}

/-- Texts that come in pieces come out as they are exactly when no piece ends inside a character,
and each comes out empty only where it is. -/
theorem texts_eq_iff (hpieces : pieces.map List.flatten = ts.map fun t => jsonEscape (encode t))
    (hss : ss.map (fun s => s.flatMap escapeUnit) = pieces.map decodeAll) :
    (ss = ts.map (fun t => decode (encode t)) ↔ ∀ piece ∈ pieces.flatten, Valid piece) ∧
      List.Forall₂ (fun s s' => s = [] ↔ s' = []) ss (ts.map fun t => decode (encode t)) := by
  induction ts generalizing ss pieces with
  | nil =>
      obtain rfl : pieces = [] := List.map_eq_nil_iff.mp hpieces
      obtain rfl : ss = [] := List.map_eq_nil_iff.mp hss
      exact ⟨by simp, .nil⟩
  | cons t ts ih =>
      obtain ⟨piece, pieces, rfl, hpiece, hpieces⟩ := List.map_eq_cons_iff.mp hpieces
      obtain ⟨s, ss, rfl, hs, hss⟩ := List.map_eq_cons_iff.mp hss
      obtain ⟨hiff, hempty⟩ := ih hpieces hss
      refine ⟨?_, .cons (eq_nil_iff hpiece hs) hempty⟩
      rw [List.map_cons, List.cons.injEq, eq_decode_iff hpiece hs, hiff, List.flatten_cons]
      simp only [List.mem_append, or_imp, forall_and]

end Texts

section Frames

variable {f : Frame Bytes} {g g' : Frame JsString} {run : Run} {m m' : JsString}

theorem workerError_inj (h : m = [] ↔ m' = []) : run.workerError m = run.workerError m' ↔ m = m' := by
  constructor
  · intro heq
    have hmessage := congrArg WorkerPoolError.message heq
    simp only [Run.workerError] at hmessage
    by_cases hm : m = []
    · rw [hm, h.mp hm]
    · rwa [if_neg hm, if_neg (mt h.mpr hm)] at hmessage
  · rintro rfl
    rfl

theorem answered_inj {x x' d d' : JsString} {reason reason' : Option JsString}
    (h : Option.Rel (fun s s' => s = [] ↔ s' = []) reason reason') :
    Run.answered x d reason = Run.answered x' d' reason' ↔ x = x' ∧ d = d' ∧ reason = reason' := by
  constructor
  · intro heq
    refine ⟨congrArg InferenceResult.text heq, congrArg InferenceResult.device heq, ?_⟩
    have hreason := congrArg InferenceResult.degradedReason heq
    simp only [Run.answered] at hreason
    cases h with
    | none => rfl
    | @some r r' h =>
        simp only [Option.bind_some] at hreason
        by_cases hr : r = []
        · rw [hr, h.mp hr]
        · rw [if_neg hr, if_neg (mt h.mpr hr)] at hreason
          exact hreason
  · rintro ⟨rfl, rfl, rfl⟩
    rfl

/-- Two last frames of one kind are answered alike exactly when the texts that the run reads of
them are the same. -/
theorem replied_last_iff (h : g.Alike (fun s s' => s = [] ↔ s' = []) g')
    (htoken : g.isToken = false) (more more' : List (Bool × Frame JsString)) :
    run.replied ((false, g) :: more) = run.replied ((false, g') :: more') ↔
      g.texts.tail = g'.texts.tail := by
  cases h with
  | token => cases htoken
  | error hid hmessage =>
      simp [Run.replied, Frame.texts, workerError_inj hmessage]
  | result hid htext hdevice hreason =>
      cases hreason with
      | none => simp [Run.replied, Frame.texts, answered_inj .none]
      | some hreason => simp [Run.replied, Frame.texts, answered_inj (.some hreason)]

/-- A frame that corresponds to another one of its kind text by text. -/
theorem alike_of_texts {R : Bytes → JsString → Prop} {E : JsString → JsString → Prop}
    {φ : Bytes → JsString} (h : f.Alike R g) (htexts : List.Forall₂ E g.texts (f.map φ).texts) :
    g.Alike E (f.map φ) := by
  cases h with
  | token =>
      obtain _ | ⟨hid, _ | ⟨hpiece, _⟩⟩ := htexts
      exact .token hid hpiece
  | error =>
      obtain _ | ⟨hid, _ | ⟨hmessage, _⟩⟩ := htexts
      exact .error hid hmessage
  | result _ _ _ hreason =>
      obtain _ | ⟨hid, _ | ⟨htext, _ | ⟨hdevice, hmore⟩⟩⟩ := htexts
      cases hreason with
      | none => exact .result hid htext hdevice .none
      | some _ =>
          obtain _ | ⟨hreason, _⟩ := hmore
          exact .result hid htext hdevice (.some hreason)

/-- The texts of one frame that comes in pieces. -/
theorem frame_texts_iff {f₀ : Frame (List Char)} {chunks : List Bytes} {y : Bytes}
    (hdevice : (f₀.map encode).plainDevice = true)
    (h : chunks.flatten = (f₀.map encode).json ++ y) (hfg : (f₀.map encode).Alike Mirrors g)
    (hg : (g.map fun s => s.flatMap escapeUnit).texts =
      (fieldPieces (f₀.map encode).escaped.segments chunks).map decodeAll) :
    (g.texts.tail = ((f₀.map encode).map decode).texts.tail ↔
      ∀ piece ∈ (fieldPieces (f₀.map encode).escaped.segments chunks).tail.flatten, Valid piece) ∧
      g.Alike (fun s s' => s = [] ↔ s' = []) ((f₀.map encode).map decode) := by
  have hweave : chunks.flatten =
      weave (f₀.map encode).escaped.segments (f₀.map encode).closing ++ y := by
    rw [← Frame.json_eq_weave, h]
  have hpieces := flatten_fieldPieces hweave
  rw [Frame.snd_segments, Frame.escaped_eq_map hdevice, Frame.texts_map, Frame.texts_map,
    List.map_map, ← Frame.escaped_eq_map hdevice] at hpieces
  have hwhole : ((f₀.map encode).map decode).texts = f₀.texts.map fun t => decode (encode t) := by
    rw [Frame.texts_map, Frame.texts_map, List.map_map]
    rfl
  rw [Frame.texts_map] at hg
  constructor
  · have htail := congrArg List.tail hpieces
    have hgtail := congrArg List.tail hg
    rw [← List.map_tail, ← List.map_tail] at htail hgtail
    rw [hwhole, ← List.map_tail]
    exact (texts_eq_iff htail hgtail).1
  · apply alike_of_texts hfg
    rw [hwhole]
    exact (texts_eq_iff hpieces hg).2

theorem isToken_of_alike {R : Bytes → JsString → Prop} (h : f.Alike R g) : g.isToken = f.isToken := by
  cases h <;> rfl

end Frames

section Replies

variable {run : Run} {gs : List (Frame JsString)} {chunks : List Bytes} {y : Bytes}

/-- A reply of Unicode texts that comes in chunks is answered as if it came at once exactly when no
chunk ends inside a character of a text that the run reads. -/
theorem replied_iff (F : List (Frame (List Char)))
    (hdevice : ∀ f ∈ F, (f.map encode).plainDevice = true)
    (h : chunks.flatten = written (F.map (Frame.map encode)) ++ y)
    (hgs : List.Forall₂ (Frame.Alike Mirrors) (F.map (Frame.map encode)) gs)
    (hpieces : gs.map (fun g => (g.map fun s => s.flatMap escapeUnit).texts) =
      (replyPieces (F.map (Frame.map encode)) chunks).map (List.map decodeAll)) :
    run.replied (Run.marked (F.map (Frame.map encode)) gs) =
        run.replied (Run.marked (F.map (Frame.map encode))
          ((F.map (Frame.map encode)).map (Frame.map decode))) ↔
      ∀ piece ∈ readPieces run.stream (F.map (Frame.map encode)) chunks, Valid piece := by
  induction F generalizing gs chunks with
  | nil =>
      cases hgs
      simp [readPieces]
  | cons f₀ F ih =>
      obtain ⟨hplain, hmore⟩ := List.forall_mem_cons.mp hdevice
      cases hgs with
      | @cons f g _ gs hfg hrest =>
      rw [List.map_cons, written_cons, List.append_assoc] at h
      obtain ⟨hg, hgs⟩ := List.cons.inj hpieces
      have hbehind : (dropBytes (f₀.map encode).json.length chunks).flatten =
          written (F.map (Frame.map encode)) ++ y := by
        rw [flatten_dropBytes, h, List.drop_left]
      obtain ⟨hown, hkind⟩ := frame_texts_iff hplain h hfg hg
      have hlater := ih hmore hbehind hrest hgs
      have htoken := isToken_of_alike hfg
      generalize hwhole : (f₀.map encode).map decode = g' at hown hkind
      show run.replied (((f₀.map encode).rough, g) :: Run.marked (F.map (Frame.map encode)) gs) =
          run.replied (((f₀.map encode).rough, (f₀.map encode).map decode) ::
            Run.marked (F.map (Frame.map encode)) ((F.map (Frame.map encode)).map (Frame.map decode))) ↔
        ∀ piece ∈ (if (f₀.map encode).rough then [] else _), Valid piece
      rw [hwhole]
      cases hrough : (f₀.map encode).rough with
      | true => simp [Run.replied]
      | false =>
          rw [if_neg (by decide), ← htoken]
          cases hlast : g.isToken with
          | false =>
              rw [replied_last_iff hkind hlast]
              exact hown
          | true =>
              cases hkind with
              | result => cases hlast
              | error => cases hlast
              | @token _ _ piece piece' hid hpiece =>
                  simp only [Frame.texts, List.tail_cons, List.cons.injEq, and_true] at hown
                  rw [if_pos rfl, List.forall_mem_append, ← hlater, Run.replied, Run.replied]
                  cases hstream : run.stream with
                  | true =>
                      simp only [if_true, ← hown]
                      simp [Prod.ext_iff, and_assoc]
                  | false => simp [Prod.ext_iff]

theorem map_line (fs : List (Frame Bytes)) :
    (fs.map fun f => (f.map decode).line) = (fs.map (Frame.map decode)).map Frame.line := by
  rw [List.map_map]
  rfl

theorem alike_decode_all (fs : List (Frame Bytes)) :
    List.Forall₂ (Frame.Alike Mirrors) fs (fs.map (Frame.map decode)) := by
  rw [List.forall₂_map_right_iff, List.forall₂_same]
  exact fun f _ => Frame.alike_decode f

/-- What the caller has of a reply that comes at once. -/
theorem heard_whole {o : Options} {s : WorkerPool} {r : ℕ} {fs : List (Frame Bytes)}
    (hr : s.runs[r]? = some run) (hlive : s.threw = false) (hrun : run.Fresh) (hreply : IsReply fs)
    (hdevice : ∀ f ∈ fs, f.plainDevice = true) :
    heard (s.receive o r [written fs]) r =
      some (run.replied (Run.marked fs (fs.map (Frame.map decode)))) := by
  have hlines : decodeAll [written fs] =
      Lines.joined 0x0A ((fs.map (Frame.map decode)).map Frame.line) := by
    rw [decodeAll_singleton, decode_written hdevice, map_line]
  obtain ⟨run', hr', htokens, hout⟩ := WorkerPool.receive_reply (o := o) hr hlive hrun hreply
    (alike_decode_all fs) hlines
  rw [heard, hr', Option.map_some, htokens, hout]

end Replies

/-- However the socket cuts a worker's reply, a run hands on the same tokens and settles with the
same outcome as when it comes at once, exactly when no chunk ends inside a character of a text that
the run reads. -/
theorem framing_iff (o : Options) (s : WorkerPool) (r : ℕ) (run : Run)
    (hr : s.runs[r]? = some run) (hlive : s.threw = false) (hrun : run.Fresh)
    (F : List (Frame (List Char))) (hreply : IsReply (F.map (Frame.map encode)))
    (hdevice : ∀ f ∈ F, (f.map encode).plainDevice = true) (chunks : List Bytes)
    (hchunks : chunks.flatten = written (F.map (Frame.map encode))) :
    heard (s.receive o r chunks) r =
        heard (s.receive o r [written (F.map (Frame.map encode))]) r ↔
      ∀ piece ∈ readPieces run.stream (F.map (Frame.map encode)) chunks, Valid piece := by
  have hplain : ∀ f ∈ F.map (Frame.map encode), f.plainDevice = true := by
    intro f hf
    obtain ⟨f₀, hf₀, rfl⟩ := List.mem_map.mp hf
    exact hdevice f₀ hf₀
  have hall : chunks.flatten = written (F.map (Frame.map encode)) ++ [] := by
    rw [hchunks, List.append_nil]
  obtain ⟨gs, hgs, hpieces, hlines⟩ := decodeAll_whole hplain hchunks
  obtain ⟨run', hr', htokens, hout⟩ :=
    WorkerPool.receive_reply (o := o) hr hlive hrun hreply hgs hlines
  rw [heard_whole hr hlive hrun hreply hplain, ← replied_iff F hdevice hall hgs hpieces, heard, hr',
    Option.map_some, htokens, hout]
  exact Option.some_inj

section Example

/-- A run that has just connected. -/
def connected : Run where
  workerId := 0
  requestId := []
  prompt := []
  mfeId := []
  stream := true
  connectTimer := false
  written := true

/-- A pool with that run. -/
def streaming : WorkerPool where
  workers := ∅
  runs := [connected]

def anyOptions : Options where
  workerCount := 1
  connectTimeoutMs := 1500
  numberText literal := literal

theorem fresh_connected : connected.Fresh := ⟨⟨rfl, rfl⟩, rfl, rfl, rfl⟩

/-- A reply with one token and its result. -/
def replyOf (text : List Char) : List (Frame (List Char)) :=
  [.token ['a'] text, .result ['a'] text ['c', 'p', 'u'] none]

def replyBytes (text : List Char) : Bytes := written ((replyOf text).map (Frame.map encode))

/-- A chunk that ends between a backslash and its quote. -/
theorem framing_inside_escape :
    heard (streaming.receive anyOptions 0 [(replyBytes ['"']).take 42, (replyBytes ['"']).drop 42]) 0 =
      heard (streaming.receive anyOptions 0 [replyBytes ['"']]) 0 := by
  have hpieces : ∀ piece ∈ readPieces true ((replyOf ['"']).map (Frame.map encode))
      [(replyBytes ['"']).take 42, (replyBytes ['"']).drop 42], ∀ b ∈ piece, b.toNat < 0x80 := by
    decide +kernel
  apply (framing_iff anyOptions streaming 0 connected rfl rfl fresh_connected (replyOf ['"'])
    (by decide) (by decide) [(replyBytes ['"']).take 42, (replyBytes ['"']).drop 42] (by decide)).mpr
  exact fun piece hpiece => valid_of_ascii (hpieces piece hpiece)

/-- A chunk that ends inside an é makes two replacement characters of it. -/
theorem not_framing_inside_character : ¬ ∀ (o : Options) (s : WorkerPool) (r : ℕ) (run : Run),
    s.runs[r]? = some run → s.threw = false → run.Fresh → ∀ F : List (Frame (List Char)),
      IsReply (F.map (Frame.map encode)) → (∀ f ∈ F, (f.map encode).plainDevice = true) →
      ∀ chunks : List Bytes, chunks.flatten = written (F.map (Frame.map encode)) →
        heard (s.receive o r chunks) r =
          heard (s.receive o r [written (F.map (Frame.map encode))]) r := by
  intro h
  have hcut := h anyOptions streaming 0 connected rfl rfl fresh_connected (replyOf ['é'])
    (by decide) (by decide) [(replyBytes ['é']).take 42, (replyBytes ['é']).drop 42] (by decide)
  exact absurd hcut (by decide +kernel)

end Example

end ServeInfer.ApiServer
