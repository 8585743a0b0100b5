import ServeInfer.Lib.Utf8Text

/-!
# Decoding a stream

The decoder of a stream whose bytes come in pieces. A character cut in two waits for
the rest of it, and a byte order mark in front of the text is left out.
-/

namespace Utf8

/-- The units of some bytes, and what they leave unfinished. -/
def feedAll (p : Pending) : List UInt8 → List CodeUnit × Pending
  | [] => ([], p)
  | b :: bytes =>
      ((feed p b).1 ++ (feedAll (feed p b).2 bytes).1, (feedAll (feed p b).2 bytes).2)

def byteOrderMark : CodeUnit := 0xFEFF

/-- A `TextDecoder` between two calls. -/
structure TextDecoder where
  pending : Pending := {}
  bomSeen : Bool := false
  deriving DecidableEq, Repr

/-- `decoder.decode(bytes, { stream: true })`, and the decoder after it. -/
def TextDecoder.decode (d : TextDecoder) (bytes : List UInt8) : List CodeUnit × TextDecoder :=
  match d.bomSeen, (feedAll d.pending bytes).1 with
  | true, units => (units, { pending := (feedAll d.pending bytes).2, bomSeen := true })
  | false, [] => ([], { pending := (feedAll d.pending bytes).2, bomSeen := false })
  | false, u :: units =>
      (if u = byteOrderMark then units else u :: units,
        { pending := (feedAll d.pending bytes).2, bomSeen := true })

variable {p : Pending} {point : ℕ} {x y tail : List UInt8} {d : TextDecoder}

@[simp] theorem feedAll_nil (p : Pending) : feedAll p [] = ([], p) := rfl

theorem feedAll_append (p : Pending) (x y : List UInt8) :
    feedAll p (x ++ y) =
      ((feedAll p x).1 ++ (feedAll (feedAll p x).2 y).1, (feedAll (feedAll p x).2 y).2) := by
  induction x generalizing p with
  | nil => rfl
  | cons b x ih => rw [List.cons_append, feedAll, ih, feedAll, List.append_assoc]

theorem Completes.feedAll (h : Completes point p tail) :
    Utf8.feedAll p tail = (encodePoint point, {}) := by
  induction tail generalizing p with
  | nil => cases h
  | cons b tail ih =>
      cases tail with
      | nil =>
          obtain ⟨hneeded, hlow, hhigh, rfl⟩ := h
          rw [Utf8.feedAll, feed_last hneeded hlow hhigh, feedAll_nil, List.append_nil]
      | cons b' tail =>
          obtain ⟨hneeded, hlow, hhigh, hrest⟩ := h
          rw [Utf8.feedAll, feed_next hneeded hlow hhigh, ih hrest, List.nil_append]

theorem feedAll_encodeChar (c : Char) : feedAll {} (encodeChar c) = (encodePoint c.toNat, {}) := by
  obtain ⟨hascii, heq⟩ | ⟨lead, tail, p, -, heq, hstart, hcompletes, -⟩ := encodeChar_cases c
  · have hnat : (UInt8.ofNat c.toNat).toNat = c.toNat := toNat_ofNat_lt (by omega)
    rw [heq, feedAll, sound_idle.feed_ascii (by omega), feedAll_nil, encodePoint,
      if_pos (by omega), unit, hnat]
    rfl
  · have hfeed : feed {} lead = ([], p) := by
      rw [← hstart]
      rfl
    rw [heq, feedAll, hfeed, hcompletes.feedAll, List.nil_append]

/-- A text leaves nothing unfinished. -/
theorem feedAll_encode (t : List Char) : feedAll {} (encode t) = (utf16 t, {}) := by
  induction t with
  | nil => rfl
  | cons c t ih =>
      rw [encode, List.flatMap_cons, feedAll_append, feedAll_encodeChar, ← encode, ih, utf16,
        utf16, List.flatMap_cons]

@[simp] theorem TextDecoder.decode_nil (d : TextDecoder) : d.decode [] = ([], d) := by
  obtain ⟨pending, bomSeen⟩ := d
  cases bomSeen <;> rfl

/-- It makes no difference where a stream is cut. -/
theorem TextDecoder.decode_append (d : TextDecoder) (x y : List UInt8) :
    d.decode (x ++ y) =
      ((d.decode x).1 ++ ((d.decode x).2.decode y).1, ((d.decode x).2.decode y).2) := by
  obtain ⟨pending, bomSeen⟩ := d
  have happend := feedAll_append pending x y
  cases bomSeen with
  | true => simp only [decode, happend]
  | false =>
      cases hx : (feedAll pending x).1 with
      | nil => simp only [decode, happend, hx, List.nil_append]
      | cons u units =>
          simp only [decode, happend, hx, List.cons_append]
          split_ifs with hmark
          · rfl
          · rfl

/-- A text without a mark in front of it. -/
theorem TextDecoder.decode_encode {t : List Char} (ht : (utf16 t).head? ≠ some byteOrderMark) :
    (({} : TextDecoder).decode (encode t)).1 = utf16 t := by
  unfold decode
  rw [feedAll_encode]
  cases hunits : utf16 t with
  | nil => rfl
  | cons u units =>
      rw [hunits] at ht
      exact if_neg fun hu => ht (congrArg some hu)

end Utf8
