import ServeInfer.Lib.Utf8Text

/-!
# Strings of code units

The code points of a string, where a surrogate without its other half is a point
of its own, and the bytes that the string is written as.
-/

namespace Utf8

def isHigh (u : CodeUnit) : Bool := 0xD800 ≤ u.toNat && u.toNat < 0xDC00

def isLow (u : CodeUnit) : Bool := 0xDC00 ≤ u.toNat && u.toNat < 0xE000

/-- The point of a surrogate pair. -/
def joinPair (u v : CodeUnit) : ℕ := 0x10000 + (u.toNat - 0xD800) * 0x400 + (v.toNat - 0xDC00)

/-- The code points of a string. -/
def points : List CodeUnit → List ℕ
  | [] => []
  | [u] => [u.toNat]
  | u :: v :: rest =>
      if isHigh u && isLow v then joinPair u v :: points rest else u.toNat :: points (v :: rest)

/-- The bytes of a code point; a lone surrogate has none of its own. -/
def pointBytes (n : ℕ) : List UInt8 :=
  if n.isValidChar then encodeChar (Char.ofNat n) else encodeChar (Char.ofNat 0xFFFD)

/-- `Buffer.from(s, 'utf8')`. -/
def toBytes (s : List CodeUnit) : List UInt8 := (points s).flatMap pointBytes

variable {u v : CodeUnit} {s : List CodeUnit} {t : List Char} {n : ℕ}

theorem isHigh_iff : isHigh u = true ↔ 0xD800 ≤ u.toNat ∧ u.toNat < 0xDC00 := by
  rw [isHigh, Bool.and_eq_true, decide_eq_true_iff, decide_eq_true_iff]

theorem isLow_iff : isLow u = true ↔ 0xDC00 ≤ u.toNat ∧ u.toNat < 0xE000 := by
  rw [isLow, Bool.and_eq_true, decide_eq_true_iff, decide_eq_true_iff]

theorem points_cons (hu : isHigh u = false) (s : List CodeUnit) :
    points (u :: s) = u.toNat :: points s := by
  cases s with
  | nil => rfl
  | cons v s => rw [points, hu, Bool.false_and, if_neg Bool.false_ne_true]

theorem points_pair {k m : ℕ} (hu : u.toNat = 0xD800 + k) (hk : k < 0x400)
    (hv : v.toNat = 0xDC00 + m) (hm : m < 0x400) (s : List CodeUnit) :
    points (u :: v :: s) = (0x10000 + k * 0x400 + m) :: points s := by
  have hpair : (isHigh u && isLow v) = true := by
    rw [Bool.and_eq_true, isHigh_iff, isLow_iff]
    omega
  have hjoin : joinPair u v = 0x10000 + k * 0x400 + m := by
    unfold joinPair
    rw [hu, hv]
    omega
  rw [points, if_pos hpair, hjoin]

/-- A character is one code point, whatever comes behind it. -/
theorem points_encodePoint (c : Char) (s : List CodeUnit) :
    points (encodePoint c.toNat ++ s) = c.toNat :: points s := by
  have hvalid := toNat_valid c
  unfold encodePoint
  split
  · have hnat : (UInt16.ofNat c.toNat).toNat = c.toNat := by
      rw [UInt16.toNat_ofNat']
      omega
    have hhigh : isHigh (.ofNat c.toNat) = false := by
      rw [← Bool.not_eq_true, isHigh_iff, hnat]
      omega
    rw [List.singleton_append, points_cons hhigh, hnat]
  · have hk : (c.toNat - 0x10000) / 0x400 < 0x400 := by omega
    have hm : (c.toNat - 0x10000) % 0x400 < 0x400 := Nat.mod_lt _ (by omega)
    have hfirst : (UInt16.ofNat (0xD800 + (c.toNat - 0x10000) / 0x400)).toNat =
        0xD800 + (c.toNat - 0x10000) / 0x400 := by
      rw [UInt16.toNat_ofNat']
      omega
    have hsecond : (UInt16.ofNat (0xDC00 + (c.toNat - 0x10000) % 0x400)).toNat =
        0xDC00 + (c.toNat - 0x10000) % 0x400 := by
      rw [UInt16.toNat_ofNat']
      omega
    have hpoint : 0x10000 + (c.toNat - 0x10000) / 0x400 * 0x400 +
        (c.toNat - 0x10000) % 0x400 = c.toNat := by omega
    rw [List.cons_append, List.singleton_append, points_pair hfirst hk hsecond hm, hpoint]

/-- The points of a text are its characters. -/
theorem points_utf16 (t : List Char) : points (utf16 t) = t.map Char.toNat := by
  induction t with
  | nil => rfl
  | cons c t ih =>
      rw [utf16, List.flatMap_cons, ← utf16, points_encodePoint, ih, List.map_cons]

theorem pointBytes_toNat (c : Char) : pointBytes c.toNat = encodeChar c := by
  have hvalid : c.toNat.isValidChar := c.valid
  rw [pointBytes, if_pos hvalid, Char.ofNat_toNat]

/-- A text is written as its bytes. -/
theorem toBytes_utf16 (t : List Char) : toBytes (utf16 t) = encode t := by
  rw [toBytes, points_utf16, List.flatMap_map, encode]
  exact List.flatMap_congr fun c _ => pointBytes_toNat c

theorem lt_of_mem_points (hn : n ∈ points s) : n < 0x110000 := by
  fun_induction points s with
  | case1 => cases hn
  | case2 u =>
      have hlt := u.toNat_lt
      have heq := List.mem_singleton.mp hn
      omega
  | case3 u v rest hpair ih =>
      rcases List.mem_cons.mp hn with heq | hrest
      · simp only [Bool.and_eq_true, isHigh_iff, isLow_iff] at hpair
        unfold joinPair at heq
        omega
      · exact ih hrest
  | case4 u v rest _ ih =>
      rcases List.mem_cons.mp hn with heq | hrest
      · have hlt := u.toNat_lt
        omega
      · exact ih hrest

/-- A point is a character or a lone surrogate. -/
theorem char_or_surrogate (hn : n < 0x110000) :
    (∃ c : Char, n = c.toNat) ∨ 0xD800 ≤ n ∧ n ≤ 0xDFFF := by
  by_cases hsurrogate : 0xD800 ≤ n ∧ n ≤ 0xDFFF
  · exact .inr hsurrogate
  · have hvalid : n.isValidChar := by
      unfold Nat.isValidChar
      omega
    exact .inl ⟨Char.ofNat n, (toNat_charOfNat hvalid).symm⟩

theorem utf16_append (t t' : List Char) : utf16 (t ++ t') = utf16 t ++ utf16 t' :=
  List.flatMap_append

theorem encode_append (t t' : List Char) : encode (t ++ t') = encode t ++ encode t' :=
  List.flatMap_append

end Utf8
