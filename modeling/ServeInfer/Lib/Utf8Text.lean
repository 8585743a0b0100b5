import ServeInfer.Lib.Utf8
import Mathlib.Tactic.SplitIfs

/-!
# Valid UTF-8 and where it may be cut

The bytes and the code units of a text of characters. The decoder gives back the
units of every text, and a text decoded in pieces comes out as it is exactly when
no piece ends inside a character.
-/

namespace Utf8

/-- The bytes of a character. -/
def encodeChar (c : Char) : List UInt8 :=
  let n := c.toNat
  if n < 0x80 then [.ofNat n]
  else if n < 0x800 then [.ofNat (0xC0 + n / 0x40), .ofNat (0x80 + n % 0x40)]
  else if n < 0x10000 then
    [.ofNat (0xE0 + n / 0x1000), .ofNat (0x80 + n / 0x40 % 0x40), .ofNat (0x80 + n % 0x40)]
  else
    [.ofNat (0xF0 + n / 0x40000), .ofNat (0x80 + n / 0x1000 % 0x40), .ofNat (0x80 + n / 0x40 % 0x40),
      .ofNat (0x80 + n % 0x40)]

/-- The bytes of a text. -/
def encode (t : List Char) : List UInt8 := t.flatMap encodeChar

/-- The code units of a text. -/
def utf16 (t : List Char) : List CodeUnit := t.flatMap fun c => encodePoint c.toNat

/-- The bytes are those of a text. -/
def Valid (bytes : List UInt8) : Prop := ∃ t, bytes = encode t

/-- The bytes bring the character that the decoder is in to its end. -/
def Completes (point : ℕ) : Pending → List UInt8 → Prop
  | _, [] => False
  | p, [b] => p.needed = 1 ∧ p.lower ≤ b.toNat ∧ b.toNat ≤ p.upper ∧ p.extend b = point
  | p, b :: b' :: bytes =>
      1 < p.needed ∧ p.lower ≤ b.toNat ∧ b.toNat ≤ p.upper ∧
        Completes point { needed := p.needed - 1, point := p.extend b } (b' :: bytes)

variable {p : Pending} {b : UInt8} {c : Char} {point : ℕ} {bytes tail q q' x y : List UInt8}
  {t : List Char} {pieces : List (List UInt8)}

theorem feed_last (hneeded : p.needed = 1) (hlow : p.lower ≤ b.toNat) (hhigh : b.toNat ≤ p.upper) :
    feed p b = (encodePoint (p.extend b), {}) := by
  unfold feed
  rw [if_neg (by omega), if_neg (by omega), if_pos hneeded]

theorem feed_next (hneeded : 1 < p.needed) (hlow : p.lower ≤ b.toNat) (hhigh : b.toNat ≤ p.upper) :
    feed p b = ([], { needed := p.needed - 1, point := p.extend b }) := by
  unfold feed
  rw [if_neg (by omega), if_neg (by omega), if_neg (by omega)]

theorem Completes.decodeFrom (h : Completes point p tail) (rest : List UInt8) :
    Utf8.decodeFrom p (tail ++ rest) = encodePoint point ++ decode rest := by
  induction tail generalizing p with
  | nil => cases h
  | cons b tail ih =>
      cases tail with
      | nil =>
          obtain ⟨hneeded, hlow, hhigh, rfl⟩ := h
          rw [List.singleton_append, Utf8.decodeFrom, feed_last hneeded hlow hhigh,
            decode]
      | cons b' tail =>
          obtain ⟨hneeded, hlow, hhigh, hrest⟩ := h
          rw [List.cons_append, Utf8.decodeFrom, feed_next hneeded hlow hhigh, ih hrest,
            List.nil_append]

/-- A character cut short becomes one replacement character. -/
theorem Completes.cut (h : Completes point p (q ++ q')) (hq' : q' ≠ []) :
    Utf8.decodeFrom p q = [replacement] := by
  induction q generalizing p with
  | nil =>
      have hneeded : p.needed ≠ 0 := by
        cases q' with
        | nil => exact absurd rfl hq'
        | cons b q' =>
            cases q' with
            | nil => exact fun h0 => by simp [Completes, h0] at h
            | cons b' q' => exact fun h0 => by simp [Completes, h0] at h
      rw [Utf8.decodeFrom, flush, if_neg hneeded]
  | cons b q ih =>
      obtain ⟨b', rest, hrest⟩ : ∃ b' rest, q ++ q' = b' :: rest := by
        cases hcat : q ++ q' with
        | nil => exact absurd (List.append_eq_nil_iff.mp hcat).2 hq'
        | cons b' rest => exact ⟨b', rest, rfl⟩
      rw [List.cons_append, hrest] at h
      obtain ⟨hneeded, hlow, hhigh, hcompletes⟩ := h
      rw [← hrest] at hcompletes
      rw [Utf8.decodeFrom, feed_next hneeded hlow hhigh, ih hcompletes, List.nil_append]

/-- The bytes after the first are none that a character begins with. -/
theorem Completes.continues (h : Completes point p tail) (hlow : 0x80 ≤ p.lower)
    (hhigh : p.upper ≤ 0xBF) : ∀ b ∈ tail, 0x80 ≤ b.toNat ∧ b.toNat < 0xC0 := by
  induction tail generalizing p with
  | nil => cases h
  | cons b tail ih =>
      have hfirst : p.lower ≤ b.toNat ∧ b.toNat ≤ p.upper := by
        cases tail with
        | nil => exact ⟨h.2.1, h.2.2.1⟩
        | cons b' tail => exact ⟨h.2.1, h.2.2.1⟩
      have hrest : ∀ b ∈ tail, 0x80 ≤ b.toNat ∧ b.toNat < 0xC0 := by
        cases tail with
        | nil => exact fun b hb => absurd hb List.not_mem_nil
        | cons b' tail => exact ih h.2.2.2 (Nat.le_refl 0x80) (Nat.le_refl 0xBF)
      intro b' hb'
      obtain rfl | hb' := List.mem_cons.mp hb'
      · omega
      · exact hrest b' hb'

theorem toNat_ofNat_lt {n : ℕ} (hn : n < 256) : (UInt8.ofNat n).toNat = n := by
  rw [UInt8.toNat_ofNat', Nat.mod_eq_of_lt hn]

theorem toNat_valid (c : Char) : c.toNat < 0xD800 ∨ 0xDFFF < c.toNat ∧ c.toNat < 0x110000 :=
  c.valid

theorem toNat_charOfNat {n : ℕ} (hn : n.isValidChar) : (Char.ofNat n).toNat = n := by
  rw [Char.ofNat, dif_pos hn]
  rfl

/-- How the decoder takes the first byte of a character of two bytes. -/
theorem start_two {n : ℕ} (hlow : 2 ≤ n) (hhigh : n < 0x20) :
    start (.ofNat (0xC0 + n)) = ([], { needed := 1, point := n }) := by
  have hlead : (UInt8.ofNat (0xC0 + n)).toNat = 0xC0 + n := toNat_ofNat_lt (by omega)
  simp only [start, hlead]
  rw [if_neg (by omega), if_neg (by omega), if_pos (by omega), Nat.add_sub_cancel_left]

/-- How the decoder takes the first byte of a character of three bytes. -/
theorem start_three {n : ℕ} (hhigh : n < 0x10) :
    start (.ofNat (0xE0 + n)) =
      ([], { needed := 2, point := n, lower := if n = 0 then 0xA0 else 0x80,
             upper := if n = 0xD then 0x9F else 0xBF }) := by
  have hlead : (UInt8.ofNat (0xE0 + n)).toNat = 0xE0 + n := toNat_ofNat_lt (by omega)
  have hlower : (0xE0 + n = 0xE0) = (n = 0) := by simp
  have hupper : (0xE0 + n = 0xED) = (n = 0xD) := by
    apply propext
    omega
  simp only [start, hlead, hlower, hupper]
  rw [if_neg (by omega), if_neg (by omega), if_neg (by omega), if_pos (by omega),
    Nat.add_sub_cancel_left]

/-- How the decoder takes the first byte of a character of four bytes. -/
theorem start_four {n : ℕ} (hhigh : n < 5) :
    start (.ofNat (0xF0 + n)) =
      ([], { needed := 3, point := n, lower := if n = 0 then 0x90 else 0x80,
             upper := if n = 4 then 0x8F else 0xBF }) := by
  have hlead : (UInt8.ofNat (0xF0 + n)).toNat = 0xF0 + n := toNat_ofNat_lt (by omega)
  have hlower : (0xF0 + n = 0xF0) = (n = 0) := by simp
  have hupper : (0xF0 + n = 0xF4) = (n = 4) := by
    apply propext
    omega
  simp only [start, hlead, hlower, hupper]
  rw [if_neg (by omega), if_neg (by omega), if_neg (by omega), if_neg (by omega),
    if_pos (by omega), Nat.add_sub_cancel_left]

/-- A byte that goes on with a character. -/
theorem toNat_continuation {n : ℕ} (hn : n < 0x40) : (UInt8.ofNat (0x80 + n)).toNat = 0x80 + n :=
  toNat_ofNat_lt (by omega)

section Completion

variable {m k : ℕ}

theorem extend_continuation (hb : b.toNat = 0x80 + m) : p.extend b = p.point * 0x40 + m := by
  unfold Pending.extend
  omega

/-- The last byte of a character. -/
theorem completes_last (hb : b.toNat = 0x80 + m) (hm : m < 0x40) :
    Completes (k * 0x40 + m) { needed := 1, point := k } [b] := by
  refine ⟨rfl, ?_, ?_, extend_continuation hb⟩
  · show 0x80 ≤ _
    omega
  · show _ ≤ 0xBF
    omega

/-- One more byte of a character. -/
theorem completes_next {b' : UInt8} (hneeded : 1 < p.needed) (hb : b.toNat = 0x80 + m)
    (hlow : p.lower ≤ 0x80 + m) (hhigh : 0x80 + m ≤ p.upper)
    (h : Completes point { needed := p.needed - 1, point := p.point * 0x40 + m } (b' :: bytes)) :
    Completes point p (b :: b' :: bytes) := by
  rw [← extend_continuation hb] at h
  rw [← hb] at hlow hhigh
  exact ⟨hneeded, hlow, hhigh, h⟩

theorem completes_middle {b' : UInt8} {n : ℕ} (hb : b.toNat = 0x80 + m) (hm : m < 0x40)
    (h : Completes point { needed := n + 1, point := k * 0x40 + m } (b' :: bytes)) :
    Completes point { needed := n + 2, point := k } (b :: b' :: bytes) := by
  refine completes_next (Nat.lt_add_left n (Nat.lt_succ_self 1)) hb ?_ ?_ h
  · show 0x80 ≤ _
    omega
  · show _ ≤ 0xBF
    omega

end Completion

/-- The bytes of a character that is not ASCII: one that begins it, and those that complete it. -/
theorem encodeChar_cases (c : Char) :
    (c.toNat < 0x80 ∧ encodeChar c = [.ofNat c.toNat]) ∨
      ∃ lead tail p, 0x80 ≤ c.toNat ∧ encodeChar c = lead :: tail ∧ start lead = ([], p) ∧
        Completes c.toNat p tail ∧ (0x10000 ≤ c.toNat ∨ tail.length ≤ 2) := by
  have hvalid := toNat_valid c
  unfold encodeChar
  dsimp only
  generalize c.toNat = n at hvalid ⊢
  by_cases h1 : n < 0x80
  · exact .inl ⟨h1, if_pos h1⟩
  · right
    have hlast := toNat_continuation (n := n % 0x40) (by omega)
    by_cases h2 : n < 0x800
    · simp only [if_neg h1, if_pos h2]
      have hcompletes := completes_last (k := n / 0x40) hlast (by omega)
      rw [Nat.div_add_mod'] at hcompletes
      have hstart := start_two (n := n / 0x40) (by omega) (by omega)
      exact ⟨_, _, _, by omega, rfl, hstart, hcompletes, .inr (Nat.le_succ 1)⟩
    · have hmiddle := toNat_continuation (n := n / 0x40 % 0x40) (by omega)
      by_cases h3 : n < 0x10000
      · simp only [if_neg h1, if_neg h2, if_pos h3]
        have hcompletes : Completes n
            { needed := 2, point := n / 0x1000, lower := if n / 0x1000 = 0 then 0xA0 else 0x80,
              upper := if n / 0x1000 = 0xD then 0x9F else 0xBF }
            [.ofNat (0x80 + n / 0x40 % 0x40), .ofNat (0x80 + n % 0x40)] := by
          have htail := completes_last (k := n / 0x1000 * 0x40 + n / 0x40 % 0x40) hlast (by omega)
          have hpoint : (n / 0x1000 * 0x40 + n / 0x40 % 0x40) * 0x40 + n % 0x40 = n := by omega
          rw [hpoint] at htail
          refine completes_next (Nat.lt_succ_self 1) hmiddle ?_ ?_ htail
          · dsimp only
            split <;> omega
          · dsimp only
            split <;> omega
        have hstart := start_three (n := n / 0x1000) (by omega)
        exact ⟨_, _, _, by omega, rfl, hstart, hcompletes, .inr (Nat.le_refl 2)⟩
      · have hsecond := toNat_continuation (n := n / 0x1000 % 0x40) (by omega)
        simp only [if_neg h1, if_neg h2, if_neg h3]
        have hcompletes : Completes n
            { needed := 3, point := n / 0x40000, lower := if n / 0x40000 = 0 then 0x90 else 0x80,
              upper := if n / 0x40000 = 4 then 0x8F else 0xBF }
            [.ofNat (0x80 + n / 0x1000 % 0x40), .ofNat (0x80 + n / 0x40 % 0x40),
              .ofNat (0x80 + n % 0x40)] := by
          have htail := completes_middle (n := 0) (k := n / 0x40000 * 0x40 + n / 0x1000 % 0x40)
            hmiddle (by omega) (completes_last hlast (by omega))
          have hpoint : ((n / 0x40000 * 0x40 + n / 0x1000 % 0x40) * 0x40 + n / 0x40 % 0x40) * 0x40 +
              n % 0x40 = n := by omega
          rw [hpoint] at htail
          refine completes_next (Nat.lt_add_left 1 (Nat.le_refl 2)) hsecond ?_ ?_ htail
          · dsimp only
            split <;> omega
          · dsimp only
            split <;> omega
        have hstart := start_four (n := n / 0x40000) (by omega)
        exact ⟨_, _, _, by omega, rfl, hstart, hcompletes, .inl (by omega)⟩

theorem le_encodeChar (hc : 0x80 ≤ c.toNat) : ∀ b ∈ encodeChar c, 0x80 ≤ b.toNat := by
  obtain ⟨hascii, -⟩ | ⟨lead, tail, p, -, heq, hstart, hcompletes, -⟩ := encodeChar_cases c
  · omega
  · have hlead : 0x80 ≤ lead.toNat := by
      by_contra hlow
      rw [start_ascii (Nat.not_le.mp hlow)] at hstart
      cases hstart
    have hsound := sound_start lead
    rw [hstart] at hsound
    intro b hb
    rw [heq] at hb
    obtain rfl | hb := List.mem_cons.mp hb
    · exact hlead
    · exact (hcompletes.continues hsound.lower hsound.upper b hb).1

/-- ASCII bytes are those of a text. -/
theorem valid_of_ascii (hx : ∀ b ∈ x, b.toNat < 0x80) : Valid x := by
  induction x with
  | nil => exact ⟨[], rfl⟩
  | cons b x ih =>
      obtain ⟨t, rfl⟩ := ih fun d hd => hx d (List.mem_cons_of_mem b hd)
      have hb := hx b List.mem_cons_self
      have hall : ∀ n : Fin 0x80, encodeChar (Char.ofNat n) = [.ofNat n] := by decide
      have hchar : encodeChar (Char.ofNat b.toNat) = [b] := by
        have hn := hall ⟨b.toNat, hb⟩
        rwa [UInt8.ofNat_toNat] at hn
      refine ⟨Char.ofNat b.toNat :: t, ?_⟩
      calc b :: encode t
          = encodeChar (Char.ofNat b.toNat) ++ encode t := by rw [hchar, List.singleton_append]
        _ = encode (Char.ofNat b.toNat :: t) := by rw [encode, encode, List.flatMap_cons]

/-- The decoder gives back a character. -/
theorem decode_encodeChar (c : Char) (rest : List UInt8) :
    decode (encodeChar c ++ rest) = encodePoint c.toNat ++ decode rest := by
  obtain ⟨hascii, heq⟩ | ⟨lead, tail, p, -, heq, hstart, hcompletes, -⟩ := encodeChar_cases c
  · have hnat : (UInt8.ofNat c.toNat).toNat = c.toNat := toNat_ofNat_lt (by omega)
    rw [heq, List.singleton_append, decode_ascii (by omega), encodePoint, if_pos (by omega), unit,
      hnat, List.singleton_append]
  · have hfeed : feed {} lead = ([], p) := by
      rw [← hstart]
      rfl
    rw [heq, List.cons_append, decode, decodeFrom, hfeed, hcompletes.decodeFrom, List.nil_append]

/-- The decoder gives back a text, whatever comes behind it. -/
theorem decode_encode_append (t : List Char) (rest : List UInt8) :
    decode (encode t ++ rest) = utf16 t ++ decode rest := by
  induction t with
  | nil => rfl
  | cons c t ih =>
      rw [encode, List.flatMap_cons, List.append_assoc, decode_encodeChar, ← encode, ih, utf16,
        utf16, List.flatMap_cons, List.append_assoc]

theorem decode_encode (t : List Char) : decode (encode t) = utf16 t := by
  have happend := decode_encode_append t []
  rw [List.append_nil] at happend
  rw [happend]
  exact List.append_nil _

section Cuts

theorem encodePoint_ne_nil (n : ℕ) : encodePoint n ≠ [] := by
  rw [encodePoint]
  split <;> simp

theorem length_encodePoint (n : ℕ) : (encodePoint n).length ≤ 2 := by
  unfold encodePoint
  split
  · exact Nat.le_succ 1
  · exact Nat.le_refl 2

theorem length_flush (p : Pending) : (flush p).length ≤ 1 := by
  unfold flush
  split
  · exact Nat.zero_le 1
  · exact Nat.le_refl 1

/-- A byte that goes on with a character is none that one begins with. -/
theorem decode_continuation (hlow : 0x80 ≤ b.toNat) (hhigh : b.toNat < 0xC2)
    (rest : List UInt8) : decode (b :: rest) = replacement :: decode rest := by
  have hfeed : feed {} b = ([replacement], {}) := by
    unfold feed start
    rw [if_pos rfl]
    dsimp only
    rw [if_neg (by omega), if_pos hhigh]
  rw [decode, decodeFrom, hfeed, List.singleton_append, ← decode]

/-- To begin anew in the middle of a character makes the text no shorter. -/
theorem Pending.Sound.length_decodeFrom (h : p.Sound) (bytes : List UInt8) :
    (decodeFrom p bytes).length ≤ (flush p).length + (decode bytes).length := by
  induction bytes generalizing p with
  | nil => exact Nat.le_add_right _ _
  | cons b bytes ih =>
      by_cases hidle : p.needed = 0
      · have hsame : decodeFrom p (b :: bytes) = decode (b :: bytes) := by
          rw [decode, decodeFrom, decodeFrom, Utf8.feed, Utf8.feed, if_pos hidle, if_pos rfl]
        rw [hsame]
        exact Nat.le_add_left _ _
      · have hflush : (flush p).length = 1 := by
          rw [flush, if_neg hidle]
          rfl
        by_cases hrange : b.toNat < p.lower ∨ p.upper < b.toNat
        · have hsame : decodeFrom p (b :: bytes) = replacement :: decode (b :: bytes) := by
            rw [decode, decodeFrom, decodeFrom, Utf8.feed, Utf8.feed, if_neg hidle, if_pos hrange,
              if_pos rfl, List.cons_append]
          rw [hsame, List.length_cons, hflush]
          omega
        · have hbounds : 0x80 ≤ b.toNat ∧ b.toNat < 0xC2 := by
            have hlow := h.lower
            have hhigh := h.upper
            omega
          rw [decode_continuation hbounds.1 hbounds.2, List.length_cons, hflush, decodeFrom,
            List.length_append]
          by_cases hlast : p.needed = 1
          · rw [feed_last hlast (by omega) (by omega)]
            have hpoint := length_encodePoint (p.extend b)
            rw [decode]
            dsimp only
            omega
          · have hrest := ih (h.feed b)
            rw [feed_next (by omega) (by omega) (by omega)] at hrest ⊢
            have hnext := length_flush { needed := p.needed - 1, point := p.extend b }
            dsimp only at hrest ⊢
            rw [List.length_nil]
            omega

theorem Pending.Sound.length_decodeFrom_append (h : p.Sound) (x y : List UInt8) :
    (decodeFrom p (x ++ y)).length ≤ (decodeFrom p x).length + (decode y).length := by
  induction x generalizing p with
  | nil => exact h.length_decodeFrom y
  | cons b x ih =>
      have hrest := ih (h.feed b)
      rw [List.cons_append, Utf8.decodeFrom, Utf8.decodeFrom, List.length_append,
        List.length_append]
      omega

/-- Decoding in pieces makes a text no shorter. -/
theorem length_decode_flatten (pieces : List (List UInt8)) :
    (decode pieces.flatten).length ≤ (pieces.map decode).flatten.length := by
  induction pieces with
  | nil => exact Nat.le_refl _
  | cons piece pieces ih =>
      have happend := sound_idle.length_decodeFrom_append piece pieces.flatten
      rw [List.flatten_cons, List.map_cons, List.flatten_cons, List.length_append]
      exact Nat.le_trans happend (Nat.add_le_add_left ih _)

/-- Where a text is cut: behind a character, or inside one. -/
theorem split_encode (h : x ++ y = encode t) :
    ∃ t₁ q t₂, t = t₁ ++ t₂ ∧ x = encode t₁ ++ q ∧ q ++ y = encode t₂ ∧
      (q = [] ∨ ∃ c t₃ q', t₂ = c :: t₃ ∧ q ≠ [] ∧ q' ≠ [] ∧ encodeChar c = q ++ q' ∧
        y = q' ++ encode t₃) := by
  induction t generalizing x with
  | nil =>
      obtain ⟨rfl, rfl⟩ := List.append_eq_nil_iff.mp h
      exact ⟨[], [], [], rfl, rfl, rfl, .inl rfl⟩
  | cons c t ih =>
      have hcons : encode (c :: t) = encodeChar c ++ encode t := List.flatMap_cons
      rw [hcons] at h
      obtain ⟨x', rfl, hx'⟩ | ⟨q', hq', rfl⟩ := List.append_eq_append_iff.mp h.symm
      · obtain ⟨t₁, q, t₂, rfl, rfl, hq, hcut⟩ := ih hx'.symm
        refine ⟨c :: t₁, q, t₂, rfl, ?_, hq, hcut⟩
        rw [← List.append_assoc]
        rfl
      · by_cases hx : x = []
        · subst hx
          exact ⟨[], [], c :: t, rfl, rfl, by rw [hcons, hq']; rfl, .inl rfl⟩
        · by_cases hq : q' = []
          · subst hq
            rw [List.append_nil] at hq'
            exact ⟨[c], [], t, rfl, by rw [← hq']; simp [encode], rfl, .inl rfl⟩
          · refine ⟨[], x, c :: t, rfl, rfl, ?_, .inr ⟨c, t, q', rfl, hx, hq, hq', rfl⟩⟩
            rw [hcons, hq', List.append_assoc]

theorem decode_continuations (hq : ∀ b ∈ q, 0x80 ≤ b.toNat ∧ b.toNat < 0xC0) (rest : List UInt8) :
    (decode (q ++ rest)).length = q.length + (decode rest).length := by
  induction q with
  | nil => exact (Nat.zero_add _).symm
  | cons b q ih =>
      obtain ⟨hlow, hhigh⟩ := hq b List.mem_cons_self
      rw [List.cons_append, decode_continuation hlow (by omega), List.length_cons,
        ih fun b' hb' => hq b' (List.mem_cons_of_mem b hb'), List.length_cons]
      omega

/-- A character that is cut: its first bytes become a replacement character, and its others are
none that a character begins with. -/
theorem cut_encodeChar (h : encodeChar c = q ++ q') (hq : q ≠ []) (hq' : q' ≠ []) :
    decode q = [replacement] ∧ (∀ b ∈ q', 0x80 ≤ b.toNat ∧ b.toNat < 0xC0) ∧ 0x80 ≤ c.toNat := by
  obtain ⟨lead, q, rfl⟩ := List.exists_cons_of_ne_nil hq
  obtain ⟨-, heq⟩ | ⟨lead', tail, p, hhigh, heq, hstart, hcompletes, -⟩ := encodeChar_cases c
  · rw [heq] at h
    have hlen := congrArg List.length h
    have hpos := List.length_pos_of_ne_nil hq'
    rw [List.length_append, List.length_singleton, List.length_cons] at hlen
    omega
  · rw [heq, List.cons_append, List.cons.injEq] at h
    obtain ⟨rfl, rfl⟩ := h
    have hsound := sound_start lead'
    rw [hstart] at hsound
    refine ⟨?_, ?_, hhigh⟩
    · have hfeed : feed {} lead' = ([], p) := by
        rw [← hstart]
        rfl
      rw [decode, decodeFrom, hfeed, hcompletes.cut hq', List.nil_append]
    · intro b hb
      exact hcompletes.continues hsound.lower hsound.upper b (List.mem_append_right q hb)

/-- The units of no character begin like a cut one's, but for the replacement character's own. -/
theorem encodePoint_replacement {n : ℕ} {u v : List CodeUnit} (hn : n < 0x110000)
    (h : replacement :: u = encodePoint n ++ v) : n < 0x10000 ∧ u = v := by
  unfold encodePoint at h
  split at h
  · rename_i hlow
    exact ⟨hlow, (List.cons.inj h).2⟩
  · have hhead := congrArg UInt16.toNat (List.cons.inj h).1
    rw [UInt16.toNat_ofNat', replacement] at hhead
    have hval : (0xFFFD : UInt16).toNat = 0xFFFD := rfl
    omega

theorem Valid.nil : Valid [] := ⟨[], rfl⟩

theorem Valid.append (hx : Valid x) (hy : Valid y) : Valid (x ++ y) := by
  obtain ⟨t, rfl⟩ := hx
  obtain ⟨t', rfl⟩ := hy
  exact ⟨t ++ t', List.flatMap_append.symm⟩

theorem Valid.decode_append (hx : Valid x) (y : List UInt8) :
    decode (x ++ y) = decode x ++ decode y := by
  obtain ⟨t, rfl⟩ := hx
  rw [decode_encode_append, decode_encode]

/-- Texts decoded one by one. -/
theorem decode_valid_pieces (h : ∀ piece ∈ pieces, Valid piece) :
    (pieces.map decode).flatten = decode pieces.flatten := by
  induction pieces with
  | nil => rfl
  | cons piece pieces ih =>
      rw [List.flatten_cons, (h piece List.mem_cons_self).decode_append, List.map_cons,
        List.flatten_cons, ih fun other hother => h other (List.mem_cons_of_mem piece hother)]

theorem valid_of_decode_pieces (h : pieces.flatten = encode t)
    (hsame : (pieces.map decode).flatten = utf16 t) : ∀ piece ∈ pieces, Valid piece := by
  induction pieces generalizing t with
  | nil => exact fun piece hpiece => absurd hpiece List.not_mem_nil
  | cons piece pieces ih =>
      rw [List.flatten_cons] at h
      obtain ⟨t₁, q, t₂, rfl, rfl, hrest, hcut⟩ := split_encode h
      have hutf16 : utf16 (t₁ ++ t₂) = utf16 t₁ ++ utf16 t₂ := List.flatMap_append
      rw [List.map_cons, List.flatten_cons, decode_encode_append, hutf16, List.append_assoc,
        List.append_cancel_left_eq] at hsame
      obtain rfl | ⟨c, t₃, q', rfl, hq, hq', hchar, hlater⟩ := hcut
      · rw [List.nil_append] at hrest
        have hall := ih hrest hsame
        rw [List.append_nil]
        exact List.forall_mem_cons.mpr ⟨⟨t₁, rfl⟩, hall⟩
      · -- the cut character has become at least two units, and no later piece makes up for it
        obtain ⟨hreplaced, htail, -⟩ := cut_encodeChar hchar hq hq'
        have hcons : utf16 (c :: t₃) = encodePoint c.toNat ++ utf16 t₃ := List.flatMap_cons
        rw [hreplaced, List.singleton_append, hcons] at hsame
        have hbound : c.toNat < 0x110000 := by
          have hvalid := toNat_valid c
          omega
        obtain ⟨-, hsame⟩ := encodePoint_replacement hbound hsame
        have hlen := length_decode_flatten pieces
        rw [hsame, hlater, decode_continuations htail, decode_encode] at hlen
        have hpos := List.length_pos_of_ne_nil hq'
        omega

/-- A text decoded in pieces comes out as it is exactly when no piece ends inside a character. -/
theorem decode_pieces_iff (h : pieces.flatten = encode t) :
    (pieces.map decode).flatten = utf16 t ↔ ∀ piece ∈ pieces, Valid piece := by
  constructor
  · exact valid_of_decode_pieces h
  · intro hall
    rw [decode_valid_pieces hall, h, decode_encode]

end Cuts

end Utf8
