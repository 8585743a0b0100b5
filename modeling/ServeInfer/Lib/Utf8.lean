import Mathlib.Order.Basic
import ServeInfer.Lib.ForallMem

/-!
# Decoding UTF-8 with replacement

A byte string decoded to UTF-16 code units, as the encoding standard's decoder
does it: what is no UTF-8 becomes the replacement character, a cut character at
the end of input becomes one too, and every ASCII byte stands for itself.
-/

namespace Utf8

/-- A UTF-16 code unit. -/
abbrev CodeUnit := UInt16

/-- The decoder between two bytes: how many bytes the character still needs, what it has of the
code point, and the range of the next byte. -/
structure Pending where
  needed : ℕ := 0
  point : ℕ := 0
  lower : ℕ := 0x80
  upper : ℕ := 0xBF
  deriving DecidableEq, Repr

def replacement : CodeUnit := 0xFFFD

/-- A code point in code units. -/
def encodePoint (point : ℕ) : List CodeUnit :=
  if point < 0x10000 then [.ofNat point]
  else [.ofNat (0xD800 + (point - 0x10000) / 0x400), .ofNat (0xDC00 + (point - 0x10000) % 0x400)]

/-- A byte where a character begins. -/
def start (b : UInt8) : List CodeUnit × Pending :=
  let b := b.toNat
  if b < 0x80 then ([.ofNat b], {})
  else if b < 0xC2 then ([replacement], {})
  else if b < 0xE0 then ([], { needed := 1, point := b - 0xC0 })
  else if b < 0xF0 then
    ([], { needed := 2, point := b - 0xE0, lower := if b = 0xE0 then 0xA0 else 0x80,
           upper := if b = 0xED then 0x9F else 0xBF })
  else if b < 0xF5 then
    ([], { needed := 3, point := b - 0xF0, lower := if b = 0xF0 then 0x90 else 0x80,
           upper := if b = 0xF4 then 0x8F else 0xBF })
  else ([replacement], {})

/-- What a character cut short leaves. -/
def flush (p : Pending) : List CodeUnit := if p.needed = 0 then [] else [replacement]

/-- The code point with one more byte. -/
def Pending.extend (p : Pending) (b : UInt8) : ℕ := p.point * 0x40 + (b.toNat - 0x80)

/-- One byte. A byte out of range ends the character it was to go on with, and begins the next. -/
def feed (p : Pending) (b : UInt8) : List CodeUnit × Pending :=
  if p.needed = 0 then start b
  else if b.toNat < p.lower ∨ p.upper < b.toNat then (replacement :: (start b).1, (start b).2)
  else if p.needed = 1 then (encodePoint (p.extend b), {})
  else ([], { needed := p.needed - 1, point := p.extend b })

/-- The units of the rest of the input. -/
def decodeFrom (p : Pending) : List UInt8 → List CodeUnit
  | [] => flush p
  | b :: bytes => (feed p b).1 ++ decodeFrom (feed p b).2 bytes

/-- `bytes.toString('utf8')`. -/
def decode (bytes : List UInt8) : List CodeUnit := decodeFrom {} bytes

/-- The unit of an ASCII byte. -/
def unit (b : UInt8) : CodeUnit := .ofNat b.toNat

variable {p : Pending} {b : UInt8} {u : CodeUnit}

theorem start_ascii (hb : b.toNat < 0x80) : start b = ([unit b], {}) := by
  simp [start, hb, unit]

/-- What the decoder knows of a character it is in: the point will not be an ASCII one, and the
byte ranges lie above ASCII. -/
structure Pending.Sound (p : Pending) : Prop where
  needed : p.needed ≤ 3
  lower : 0x80 ≤ p.lower
  upper : p.upper ≤ 0xBF
  one : p.needed = 1 → 2 ≤ p.point ∧ p.point < 0x4400
  two : p.needed = 2 → 2 ≤ p.point * 0x40 + (p.lower - 0x80) ∧ p.point < 0x110
  three : p.needed = 3 → 1 ≤ p.point * 0x40 + (p.lower - 0x80) ∧
    p.point * 0x40 + (p.upper - 0x80) < 0x110

theorem sound_idle : Pending.Sound {} := by
  constructor <;> simp

theorem Pending.Sound.feed_ascii (h : p.Sound) (hb : b.toNat < 0x80) :
    feed p b = (flush p ++ [unit b], {}) := by
  unfold feed flush
  split
  · rw [start_ascii hb]
    rfl
  · have hlow : b.toNat < p.lower := Nat.lt_of_lt_of_le hb h.lower
    rw [if_pos (.inl hlow), start_ascii hb]
    rfl

theorem sound_start (b : UInt8) : (start b).2.Sound := by
  have hb := b.toNat_lt
  unfold start
  dsimp only
  split_ifs <;> constructor <;> simp <;> omega

/-- The decoder goes on soundly with every byte. -/
theorem Pending.Sound.feed (h : p.Sound) (b : UInt8) : (Utf8.feed p b).2.Sound := by
  unfold Utf8.feed
  split_ifs with hneeded hrange hlast
  · exact sound_start b
  · exact sound_start b
  · dsimp only
    exact sound_idle
  · dsimp only
    have hupper := h.upper
    have htwo := h.two
    have hthree := h.three
    have hle := h.needed
    have hpoint : p.extend b = p.point * 0x40 + (b.toNat - 0x80) := rfl
    refine ⟨?_, ?_, ?_, ?_, ?_, ?_⟩
    · exact Nat.le_trans (Nat.sub_le _ _) hle
    · exact Nat.le_refl 0x80
    · exact Nat.le_refl 0xBF
    · intro h1
      dsimp only at h1 ⊢
      omega
    · intro h2
      dsimp only at h2 ⊢
      omega
    · intro h3
      dsimp only at h3
      omega

theorem le_encodePoint {point : ℕ} (hlow : 0x80 ≤ point) (hhigh : point < 0x110000) :
    ∀ u ∈ encodePoint point, 0x80 ≤ u.toNat := by
  intro u hu
  unfold encodePoint at hu
  split at hu
  · obtain rfl := List.mem_singleton.mp hu
    rw [UInt16.toNat_ofNat']
    omega
  · simp only [List.mem_cons, List.not_mem_nil, or_false] at hu
    obtain rfl | rfl := hu
    · rw [UInt16.toNat_ofNat']
      omega
    · rw [UInt16.toNat_ofNat']
      omega

theorem le_replacement : 0x80 ≤ replacement.toNat := by
  simp [replacement]

theorem le_start (hb : 0x80 ≤ b.toNat) : ∀ u ∈ (start b).1, 0x80 ≤ u.toNat := by
  intro u hu
  unfold start at hu
  dsimp only at hu
  split_ifs at hu
  · omega
  all_goals first
    | exact absurd hu List.not_mem_nil
    | (obtain rfl := List.mem_singleton.mp hu; exact le_replacement)

/-- A byte that is not ASCII yields no ASCII unit. -/
theorem Pending.Sound.le_feed (h : p.Sound) (hb : 0x80 ≤ b.toNat) :
    ∀ u ∈ (Utf8.feed p b).1, 0x80 ≤ u.toNat := by
  intro u hu
  unfold Utf8.feed at hu
  split_ifs at hu with hneeded hrange hlast
  · exact le_start hb u hu
  · obtain rfl | hu := List.mem_cons.mp hu
    · exact le_replacement
    · exact le_start hb u hu
  · have hone := h.one hlast
    have hupper := h.upper
    have hlow : 0x80 ≤ p.extend b := by
      unfold Pending.extend
      omega
    have hhigh : p.extend b < 0x110000 := by
      unfold Pending.extend
      omega
    dsimp only at hu
    exact le_encodePoint hlow hhigh u hu
  · exact absurd hu List.not_mem_nil

theorem le_flush (p : Pending) : ∀ u ∈ flush p, 0x80 ≤ u.toNat := by
  intro u hu
  unfold flush at hu
  split at hu
  · exact absurd hu List.not_mem_nil
  · obtain rfl := List.mem_singleton.mp hu
    exact le_replacement

/-- An ASCII byte cuts the input in two. -/
theorem decodeFrom_ascii (h : p.Sound) (hb : b.toNat < 0x80) (bytes : List UInt8) :
    decodeFrom p (b :: bytes) = flush p ++ unit b :: decode bytes := by
  rw [decodeFrom, h.feed_ascii hb, List.append_assoc]
  rfl

theorem decode_ascii (hb : b.toNat < 0x80) (bytes : List UInt8) :
    decode (b :: bytes) = unit b :: decode bytes :=
  decodeFrom_ascii sound_idle hb bytes

/-- A text of ASCII bytes stands for itself. -/
theorem decode_append_ascii {front : List UInt8} (hf : ∀ b ∈ front, b.toNat < 0x80)
    (bytes : List UInt8) : decode (front ++ bytes) = front.map unit ++ decode bytes := by
  induction front with
  | nil => rfl
  | cons b front ih =>
      rw [List.cons_append, decode_ascii (hf b List.mem_cons_self),
        ih fun c hc => hf c (List.mem_cons_of_mem b hc)]
      rfl

/-- What comes before an ASCII byte is decoded on its own. -/
theorem decodeFrom_append (h : p.Sound) (front : List UInt8) (hb : b.toNat < 0x80)
    (bytes : List UInt8) :
    decodeFrom p (front ++ b :: bytes) = decodeFrom p front ++ unit b :: decode bytes := by
  induction front generalizing p with
  | nil => exact decodeFrom_ascii h hb bytes
  | cons c front ih =>
      rw [List.cons_append, decodeFrom, ih (h.feed c), decodeFrom, List.append_assoc]

end Utf8
