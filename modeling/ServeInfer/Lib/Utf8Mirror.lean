import ServeInfer.Lib.Utf8

/-!
# What decoding keeps of the ASCII in a text

A text decoded in pieces that cut its characters anywhere comes out with other
units where it was not ASCII, but with the same ASCII at the same places. That is
all a reader of quotes, braces and line ends looks at.
-/

namespace Utf8

/-- What may stand for a byte: itself for an ASCII one, and any units that are not ASCII, or none,
for another. -/
def Stands (b : UInt8) (us : List CodeUnit) : Prop :=
  if b.toNat < 0x80 then us = [unit b] else ∀ u ∈ us, 0x80 ≤ u.toNat

/-- The units stand for the bytes one after the other. -/
inductive Mirrors : List UInt8 → List CodeUnit → Prop
  | nil : Mirrors [] []
  | cons {b us bytes units} (hb : Stands b us) (h : Mirrors bytes units) :
      Mirrors (b :: bytes) (us ++ units)

variable {p : Pending} {b : UInt8} {x y : List UInt8} {u v : List CodeUnit}

theorem stands_ascii (hb : b.toNat < 0x80) : Stands b [unit b] := by
  rw [Stands, if_pos hb]

theorem stands_other (hb : 0x80 ≤ b.toNat) (hu : ∀ c ∈ u, 0x80 ≤ c.toNat) : Stands b u := by
  rw [Stands, if_neg (Nat.not_lt.mpr hb)]
  exact hu

theorem Mirrors.append (hx : Mirrors x u) (hy : Mirrors y v) : Mirrors (x ++ y) (u ++ v) := by
  induction hx with
  | nil => exact hy
  | cons hb _ ih =>
      rw [List.cons_append, List.append_assoc]
      exact .cons hb ih

/-- The units of two texts one after the other can be told apart. -/
theorem Mirrors.split (h : Mirrors (x ++ y) u) :
    ∃ v w, u = v ++ w ∧ Mirrors x v ∧ Mirrors y w := by
  induction x generalizing u with
  | nil => exact ⟨[], u, rfl, .nil, h⟩
  | cons b x ih =>
      cases h with
      | @cons _ us _ units hb h =>
          obtain ⟨v, w, rfl, hv, hw⟩ := ih h
          exact ⟨us ++ v, w, (List.append_assoc us v w).symm, .cons hb hv, hw⟩

theorem Mirrors.ascii_cons (hb : b.toNat < 0x80) (h : Mirrors (b :: x) u) :
    ∃ v, u = unit b :: v ∧ Mirrors x v := by
  cases h with
  | @cons _ us _ units hstands h =>
      rw [Stands, if_pos hb] at hstands
      subst hstands
      exact ⟨units, rfl, h⟩

/-- An ASCII text has no other mirror than itself. -/
theorem Mirrors.eq_of_ascii (hx : ∀ b ∈ x, b.toNat < 0x80) (h : Mirrors x u) : u = x.map unit := by
  induction x generalizing u with
  | nil =>
      cases h
      rfl
  | cons b x ih =>
      obtain ⟨v, rfl, hv⟩ := h.ascii_cons (hx b List.mem_cons_self)
      rw [ih (fun c hc => hx c (List.mem_cons_of_mem b hc)) hv]
      rfl

/-- An ASCII unit of the mirror is one of the bytes. -/
theorem Mirrors.mem_of_ascii {c : CodeUnit} (h : Mirrors x u) (hc : c ∈ u) (hascii : c.toNat < 0x80) :
    ∃ b ∈ x, b.toNat < 0x80 ∧ c = unit b := by
  induction h with
  | nil => cases hc
  | @cons b us bytes units hb _ ih =>
      obtain hc | hc := List.mem_append.mp hc
      · by_cases hlow : b.toNat < 0x80
        · rw [Stands, if_pos hlow] at hb
          subst hb
          exact ⟨b, List.mem_cons_self, hlow, List.mem_singleton.mp hc⟩
        · rw [Stands, if_neg hlow] at hb
          exact absurd (hb c hc) (Nat.not_le.mpr hascii)
      · obtain ⟨b', hb', hrest⟩ := ih hc
        exact ⟨b', List.mem_cons_of_mem b hb', hrest⟩

/-- An ASCII byte of the text has its unit in the mirror. -/
theorem Mirrors.mem (h : Mirrors x u) (hb : b ∈ x) (hascii : b.toNat < 0x80) : unit b ∈ u := by
  obtain ⟨front, back, rfl⟩ := List.append_of_mem hb
  obtain ⟨v, w, rfl, -, hw⟩ := h.split
  obtain ⟨w', rfl, -⟩ := hw.ascii_cons hascii
  exact List.mem_append_right v List.mem_cons_self

theorem unit_inj {c : UInt8} (h : unit b = unit c) : b = c := by
  have hb := b.toNat_lt
  have hc := c.toNat_lt
  have hnat := congrArg UInt16.toNat h
  rw [unit, unit, UInt16.toNat_ofNat', UInt16.toNat_ofNat', Nat.mod_eq_of_lt (by omega),
    Nat.mod_eq_of_lt (by omega)] at hnat
  exact UInt8.toNat_inj.mp hnat

theorem toNat_unit (b : UInt8) : (unit b).toNat = b.toNat := by
  have hb := b.toNat_lt
  rw [unit, UInt16.toNat_ofNat', Nat.mod_eq_of_lt (by omega)]

/-- An ASCII byte that is not in the text has no unit in the mirror. -/
theorem Mirrors.notMem (h : Mirrors x u) (hb : b.toNat < 0x80) (hx : b ∉ x) : unit b ∉ u := by
  intro hmem
  obtain ⟨c, hc, -, heq⟩ := h.mem_of_ascii hmem (by rw [toNat_unit]; exact hb)
  exact hx (unit_inj heq ▸ hc)

/-- The units that end a character cut short, and what stands for the rest of the input. -/
theorem Pending.Sound.mirrors (h : p.Sound) (bytes : List UInt8) :
    ∃ front units, decodeFrom p bytes = front ++ units ∧ (∀ u ∈ front, 0x80 ≤ u.toNat) ∧
      (p.needed = 0 → front = []) ∧ Mirrors bytes units := by
  induction bytes generalizing p with
  | nil =>
      refine ⟨flush p, [], (List.append_nil _).symm, le_flush p, ?_, .nil⟩
      intro hidle
      rw [flush, if_pos hidle]
  | cons b bytes ih =>
      by_cases hb : b.toNat < 0x80
      · obtain ⟨front, units, heq, -, hidle, hunits⟩ := ih sound_idle
        refine ⟨flush p, unit b :: units, ?_, le_flush p, ?_, .cons (stands_ascii hb) hunits⟩
        · rw [decodeFrom_ascii h hb, decode, heq, hidle rfl, List.nil_append]
        · intro hneeded
          rw [flush, if_pos hneeded]
      · have hhigh : 0x80 ≤ b.toNat := Nat.not_lt.mp hb
        obtain ⟨front, units, heq, hfront, -, hunits⟩ := ih (h.feed b)
        refine ⟨[], ((Utf8.feed p b).1 ++ front) ++ units, ?_, ?_, fun _ => rfl, .cons ?_ hunits⟩
        · rw [decodeFrom, heq, List.nil_append, List.append_assoc]
        · intro u hu
          cases hu
        · apply stands_other hhigh
          intro u hu
          obtain hu | hu := List.mem_append.mp hu
          · exact h.le_feed hhigh u hu
          · exact hfront u hu

/-- A text decoded on its own stands for its bytes. -/
theorem mirrors_decode (bytes : List UInt8) : Mirrors bytes (decode bytes) := by
  obtain ⟨front, units, heq, -, hidle, hunits⟩ := sound_idle.mirrors bytes
  rw [decode, heq, hidle rfl]
  exact hunits

end Utf8
