import ServeInfer.InferenceWorker.Frames
import ServeInfer.Lib.JsonText
import ServeInfer.Lib.Utf8Chunks

/-!
# Escaped texts

`jsonEscape` in code units: what stands for an escaped text is the escape of what
stands for the text, and it reads as that text unless a control character is left
in it.
-/

namespace ServeInfer.InferenceWorker

open Utf8 Json

/-- `escape` in code units. -/
def escapeUnit (u : CodeUnit) : List CodeUnit :=
  if u = 0x5C then [0x5C, 0x5C]
  else if u = 0x22 then [0x5C, 0x22]
  else if u = 0x0A then [0x5C, 0x6E]
  else if u = 0x0D then [0x5C, 0x72]
  else if u = 0x09 then [0x5C, 0x74]
  else [u]

/-- A control character that `jsonEscape` leaves as it is. -/
def raw (ch : UInt8) : Bool := ch < 0x20 && ch != 0x0A && ch != 0x0D && ch != 0x09

/-- A text that `jsonEscape` leaves a control character in. -/
def rough (text : Bytes) : Bool := text.any raw

section Escape

variable {x y : Bytes} {b : UInt8} {u m s : List CodeUnit}

theorem jsonEscape_cons (b : UInt8) (x : Bytes) : jsonEscape (b :: x) = escape b ++ jsonEscape x :=
  List.flatMap_cons

/-- What the escape of an ASCII byte stands for. -/
theorem map_unit_escape (b : UInt8) (hb : b.toNat < 0x80) :
    (escape b).map unit = escapeUnit (unit b) ∧ ∀ c ∈ escape b, c.toNat < 0x80 := by
  have hall : ∀ n : Fin 0x80, ((escape (.ofNat n)).map unit = escapeUnit (unit (.ofNat n)) ∧
      ∀ c ∈ escape (.ofNat n), c.toNat < 0x80) := by decide
  have hn := hall ⟨b.toNat, hb⟩
  rwa [UInt8.ofNat_toNat] at hn

theorem escape_other (hb : 0x80 ≤ b.toNat) : escape b = [b] := by
  have hne : ∀ c : UInt8, c.toNat < 0x80 → b ≠ c := by
    rintro c hc rfl
    omega
  unfold escape
  rw [if_neg (hne 0x5C (by decide)), if_neg (hne 0x22 (by decide)), if_neg (hne 0x0A (by decide)),
    if_neg (hne 0x0D (by decide)), if_neg (hne 0x09 (by decide))]

theorem escapeUnit_other {c : CodeUnit} (hc : 0x80 ≤ c.toNat) : escapeUnit c = [c] := by
  have hne : ∀ d : CodeUnit, d.toNat < 0x80 → c ≠ d := by
    rintro d hd rfl
    omega
  unfold escapeUnit
  rw [if_neg (hne 0x5C (by decide)), if_neg (hne 0x22 (by decide)), if_neg (hne 0x0A (by decide)),
    if_neg (hne 0x0D (by decide)), if_neg (hne 0x09 (by decide))]

theorem flatMap_escapeUnit_other (hs : ∀ c ∈ s, 0x80 ≤ c.toNat) : s.flatMap escapeUnit = s := by
  induction s with
  | nil => rfl
  | cons c s ih =>
      rw [List.flatMap_cons, escapeUnit_other (hs c List.mem_cons_self),
        ih fun d hd => hs d (List.mem_cons_of_mem c hd)]
      rfl

/-- Units that stand for an escaped text are the escaped units of the text. -/
theorem unescape_of_mirrors (h : Mirrors (jsonEscape x) m) :
    ∃ s, m = s.flatMap escapeUnit ∧ Mirrors x s := by
  induction x generalizing m with
  | nil =>
      cases h
      exact ⟨[], rfl, .nil⟩
  | cons b x ih =>
      rw [jsonEscape_cons] at h
      obtain ⟨v, w, rfl, hv, hw⟩ := h.split
      obtain ⟨s, rfl, hs⟩ := ih hw
      by_cases hb : b.toNat < 0x80
      · obtain ⟨hunit, hascii⟩ := map_unit_escape b hb
        refine ⟨unit b :: s, ?_, .cons (stands_ascii hb) hs⟩
        rw [hv.eq_of_ascii hascii, hunit, List.flatMap_cons]
      · have hhigh : 0x80 ≤ b.toNat := Nat.not_lt.mp hb
        rw [escape_other hhigh] at hv
        cases hv with
        | @cons _ us _ units hstands hnil =>
            cases hnil
            rw [List.append_nil, Stands, if_neg hb] at *
            refine ⟨us ++ s, ?_, .cons (stands_other hhigh hstands) hs⟩
            rw [List.flatMap_append, flatMap_escapeUnit_other hstands]

/-- The decoder commutes with the escape. -/
theorem decodeFrom_jsonEscape {p : Pending} (h : p.Sound) (x : Bytes) :
    decodeFrom p (jsonEscape x) = (decodeFrom p x).flatMap escapeUnit := by
  have hflush : ∀ p : Pending, (flush p).flatMap escapeUnit = flush p :=
    fun p => flatMap_escapeUnit_other (le_flush p)
  induction x generalizing p with
  | nil => exact (hflush p).symm
  | cons b x ih =>
      rw [jsonEscape_cons]
      by_cases hb : b.toNat < 0x80
      · obtain ⟨hunit, hascii⟩ := map_unit_escape b hb
        have hrest : decode (jsonEscape x) = (decode x).flatMap escapeUnit := ih sound_idle
        rw [decodeFrom_ascii h hb, List.flatMap_append, hflush, List.flatMap_cons, ← hunit]
        cases hesc : escape b with
        | nil => exact absurd hesc (by unfold escape; split_ifs <;> simp [bytes])
        | cons c front =>
            rw [hesc] at hascii
            rw [List.cons_append, decodeFrom_ascii h (hascii c List.mem_cons_self),
              decode_append_ascii fun d hd => hascii d (List.mem_cons_of_mem c hd), hrest]
            rfl
      · have hhigh : 0x80 ≤ b.toNat := Nat.not_lt.mp hb
        rw [escape_other hhigh, List.singleton_append, decodeFrom, decodeFrom, ih (h.feed b),
          List.flatMap_append, flatMap_escapeUnit_other (h.le_feed hhigh)]

theorem decode_jsonEscape (x : Bytes) : decode (jsonEscape x) = (decode x).flatMap escapeUnit :=
  decodeFrom_jsonEscape sound_idle x

/-- A control unit that the escape leaves as it is. -/
def RawUnit (c : CodeUnit) : Prop := c < 0x20 ∧ c ≠ 0x0A ∧ c ≠ 0x0D ∧ c ≠ 0x09

instance (c : CodeUnit) : Decidable (RawUnit c) := inferInstanceAs (Decidable (_ ∧ _ ∧ _ ∧ _))

theorem readsInside_escapeUnit_one {c : CodeUnit} (hc : ¬ RawUnit c) :
    ReadsInside (escapeUnit c) [c] := by
  unfold escapeUnit
  split_ifs with h1 h2 h3 h4 h5
  · subst h1
    exact readsInside_escaped (by decide)
  · subst h2
    exact readsInside_escaped (by decide)
  · subst h3
    exact readsInside_escaped (by decide)
  · subst h4
    exact readsInside_escaped (by decide)
  · subst h5
    exact readsInside_escaped (by decide)
  · exact readsInside_plain ⟨h2, h1, fun hlow => hc ⟨hlow, h3, h4, h5⟩⟩

/-- An escaped text without raw controls reads as the text. -/
theorem readsInside_escapeUnit (hs : ∀ c ∈ s, ¬ RawUnit c) : ReadsInside (s.flatMap escapeUnit) s := by
  induction s with
  | nil => exact readsInside_nil
  | cons c s ih =>
      have hrest := ih fun d hd => hs d (List.mem_cons_of_mem c hd)
      exact (readsInside_escapeUnit_one (hs c List.mem_cons_self)).append hrest

theorem brokenInside_escapeUnit_one {c : CodeUnit} (hc : RawUnit c) : BrokenInside (escapeUnit c) := by
  obtain ⟨hlow, h3, h4, h5⟩ := hc
  have hne : ∀ d : CodeUnit, ¬ d < 0x20 → c ≠ d := by
    rintro d hd rfl
    exact hd hlow
  have hquote := hne 0x22 (by decide)
  have hbackslash := hne 0x5C (by decide)
  unfold escapeUnit
  rw [if_neg hbackslash, if_neg hquote, if_neg h3, if_neg h4, if_neg h5]
  exact brokenInside_control hlow hquote hbackslash

/-- An escaped text with a raw control cannot be read. -/
theorem brokenInside_escapeUnit (hs : ∃ c ∈ s, RawUnit c) : BrokenInside (s.flatMap escapeUnit) := by
  induction s with
  | nil => exact absurd hs (by simp)
  | cons c s ih =>
      rw [List.flatMap_cons]
      by_cases hc : RawUnit c
      · exact (brokenInside_escapeUnit_one hc).append _
      · refine (readsInside_escapeUnit_one hc).broken (ih ?_)
        obtain ⟨d, hd, hraw⟩ := hs
        obtain rfl | hd := List.mem_cons.mp hd
        · exact absurd hraw hc
        · exact ⟨d, hd, hraw⟩

theorem rawUnit_unit (hb : b.toNat < 0x80) : RawUnit (unit b) ↔ raw b = true := by
  have hall : ∀ n : Fin 0x80, (unit (.ofNat n) < 0x20 ∧ unit (.ofNat n) ≠ 0x0A ∧
      unit (.ofNat n) ≠ 0x0D ∧ unit (.ofNat n) ≠ 0x09) ↔ raw (.ofNat n) = true := by decide
  have hn := hall ⟨b.toNat, hb⟩
  rwa [UInt8.ofNat_toNat] at hn

theorem toNat_lt_of_raw (hb : raw b = true) : b.toNat < 0x80 := by
  have hlow : b < 0x20 := by
    simp only [raw, Bool.and_eq_true, decide_eq_true_eq] at hb
    exact hb.1.1.1
  have hnat : b.toNat < 0x20 := hlow
  omega

/-- The units of a text have a raw control exactly when its bytes do. -/
theorem rough_iff_of_mirrors (h : Mirrors x s) : (∃ c ∈ s, RawUnit c) ↔ rough x = true := by
  rw [rough, List.any_eq_true]
  constructor
  · rintro ⟨c, hc, hraw⟩
    have hlow : c.toNat < 0x20 := hraw.1
    obtain ⟨b, hb, hascii, rfl⟩ := h.mem_of_ascii hc (by omega)
    exact ⟨b, hb, (rawUnit_unit hascii).mp hraw⟩
  · rintro ⟨b, hb, hraw⟩
    have hascii := toNat_lt_of_raw hraw
    exact ⟨unit b, h.mem hb hascii, (rawUnit_unit hascii).mpr hraw⟩

/-- No unit of an escape is a line end. -/
theorem ne_newline_of_mem_escapeUnit {c d : CodeUnit} (hd : d ∈ escapeUnit c) : d ≠ 0x0A := by
  unfold escapeUnit at hd
  split_ifs at hd with h1 h2 h3 h4 h5
  all_goals
    intro heq
    subst heq
  · exact absurd hd (by decide)
  · exact absurd hd (by decide)
  · exact absurd hd (by decide)
  · exact absurd hd (by decide)
  · exact absurd hd (by decide)
  · exact h3 (List.mem_singleton.mp hd).symm

/-- The escape of a unit is the unit, or it is a backslash and what stands for the unit behind
one. -/
theorem escapeUnit_cases (c : CodeUnit) :
    (escapeUnit c = [c] ∧ c ≠ backslash) ∨
      ∃ e, escapeUnit c = [backslash, e] ∧ escaped e = some c := by
  unfold escapeUnit
  split_ifs with h1 h2 h3 h4 h5
  · subst h1
    exact .inr ⟨_, rfl, by decide⟩
  · subst h2
    exact .inr ⟨_, rfl, by decide⟩
  · subst h3
    exact .inr ⟨_, rfl, by decide⟩
  · subst h4
    exact .inr ⟨_, rfl, by decide⟩
  · subst h5
    exact .inr ⟨_, rfl, by decide⟩
  · exact .inl ⟨rfl, h1⟩

theorem flatMap_escapeUnit_inj {s s' : List CodeUnit}
    (h : s.flatMap escapeUnit = s'.flatMap escapeUnit) : s = s' := by
  have hne : ∀ c : CodeUnit, escapeUnit c ≠ [] := by
    intro c
    obtain ⟨hc, -⟩ | ⟨e, hc, -⟩ := escapeUnit_cases c <;> simp [hc]
  induction s generalizing s' with
  | nil =>
      cases s' with
      | nil => rfl
      | cons c' s' => exact absurd (List.append_eq_nil_iff.mp h.symm).1 (hne c')
  | cons c s ih =>
      cases s' with
      | nil => exact absurd (List.append_eq_nil_iff.mp h).1 (hne c)
      | cons c' s' =>
          rw [List.flatMap_cons, List.flatMap_cons] at h
          obtain ⟨hc, hplain⟩ | ⟨e, hc, he⟩ := escapeUnit_cases c <;>
            obtain ⟨hc', hplain'⟩ | ⟨e', hc', he'⟩ := escapeUnit_cases c'
          · rw [hc, hc'] at h
            obtain ⟨rfl, hrest⟩ := List.cons.inj h
            rw [ih hrest]
          · rw [hc, hc'] at h
            exact absurd (List.cons.inj h).1 hplain
          · rw [hc, hc'] at h
            exact absurd (List.cons.inj h).1.symm hplain'
          · rw [hc, hc'] at h
            obtain ⟨rfl, hrest⟩ := List.cons.inj (List.cons.inj h).2
            obtain rfl := Option.some.inj (he.symm.trans he')
            rw [ih hrest]

/-- The escape of a text is valid UTF-8. -/
theorem valid_jsonEscape (t : List Char) : Valid (jsonEscape (encode t)) := by
  induction t with
  | nil => exact .nil
  | cons c t ih =>
      have hcons :
          jsonEscape (encode (c :: t)) = jsonEscape (encodeChar c) ++ jsonEscape (encode t) := by
        rw [encode, List.flatMap_cons, jsonEscape, List.flatMap_append]
        rfl
      rw [hcons]
      apply Valid.append _ ih
      by_cases hc : c.toNat < 0x80
      · have hb : (UInt8.ofNat c.toNat).toNat = c.toNat := toNat_ofNat_lt (by omega)
        have hchar : encodeChar c = [.ofNat c.toNat] := if_pos hc
        rw [hchar, jsonEscape, List.flatMap_singleton]
        exact valid_of_ascii (map_unit_escape _ (by omega)).2
      · have hhigh := le_encodeChar (Nat.not_lt.mp hc)
        have hself : jsonEscape (encodeChar c) = encodeChar c := by
          rw [jsonEscape, List.flatMap_congr fun b hb => escape_other (hhigh b hb),
            List.flatMap_singleton']
        rw [hself]
        exact ⟨[c], (List.append_nil _).symm⟩

/-- An escaped text that comes in pieces comes out as it is exactly when no piece ends inside a
character. -/
theorem eq_decode_iff {t : List Char} {s : List CodeUnit} {pieces : List Bytes}
    (hpieces : pieces.flatten = jsonEscape (encode t))
    (hs : s.flatMap escapeUnit = decodeAll pieces) :
    s = decode (encode t) ↔ ∀ piece ∈ pieces, Valid piece := by
  obtain ⟨t', ht'⟩ := valid_jsonEscape t
  have hwhole : (decode (encode t)).flatMap escapeUnit = utf16 t' := by
    rw [← decode_jsonEscape, ht', decode_encode]
  rw [← decode_pieces_iff (hpieces.trans ht'), ← hwhole]
  show _ ↔ decodeAll pieces = _
  rw [← hs]
  constructor
  · rintro rfl
    rfl
  · exact flatMap_escapeUnit_inj

/-- It comes out empty only where it is. -/
theorem eq_nil_iff {t : List Char} {s : List CodeUnit} {pieces : List Bytes}
    (hpieces : pieces.flatten = jsonEscape (encode t))
    (hs : s.flatMap escapeUnit = decodeAll pieces) : s = [] ↔ decode (encode t) = [] := by
  have hwhole : (decode (encode t)).flatMap escapeUnit = decode pieces.flatten := by
    rw [hpieces, decode_jsonEscape]
  constructor
  · rintro rfl
    have hlength := length_decode_flatten pieces
    have hnothing : (pieces.map decode).flatten = [] := hs.symm
    rw [hnothing, ← hwhole] at hlength
    apply flatMap_escapeUnit_inj
    exact List.length_eq_zero_iff.mp (Nat.le_zero.mp hlength)
  · intro hempty
    obtain rfl : t = [] := by
      rw [decode_encode] at hempty
      cases t with
      | nil => rfl
      | cons c t => exact absurd (List.append_eq_nil_iff.mp hempty).1 (encodePoint_ne_nil c.toNat)
    apply flatMap_escapeUnit_inj
    rw [hs]
    exact decodeAll_of_flatten_nil hpieces

end Escape

/-- A byte that the escape leaves alone and a string may hold. -/
def plain (ch : UInt8) : Bool := ch != 0x22 && ch != 0x5C && !(ch < 0x20)

theorem plain_of_mirrors {x : Bytes} {s : List CodeUnit} (h : Mirrors x s)
    (hs : ∀ c ∈ s, Plain c) : x.all plain = true := by
  have hall : ∀ n : Fin 0x80, Plain (unit (.ofNat n)) → plain (.ofNat n) = true := by
    decide
  rw [List.all_eq_true]
  intro b hb
  by_cases hascii : b.toNat < 0x80
  · have hn := hall ⟨b.toNat, hascii⟩
    rw [UInt8.ofNat_toNat] at hn
    exact hn (hs _ (h.mem hb hascii))
  · have hhigh : ∀ c : UInt8, c.toNat < 0x80 → b ≠ c := by
      rintro c hc rfl
      exact hascii hc
    have hlow : ¬ b < 0x20 := fun hlt =>
      hascii (Nat.lt_trans (show b.toNat < 0x20 from hlt) (by decide))
    simp [plain, hhigh 0x22 (by decide), hhigh 0x5C (by decide), hlow]

theorem jsonEscape_plain {x : Bytes} (hx : x.all plain = true) : jsonEscape x = x := by
  induction x with
  | nil => rfl
  | cons b x ih =>
      rw [List.all_cons, Bool.and_eq_true] at hx
      have hb : escape b = [b] := by
        have hlow : ∀ c : UInt8, c < 0x20 → b ≠ c := by
          rintro c hc rfl
          simp [plain, hc] at hx
        simp only [plain, Bool.and_eq_true, bne_iff_ne] at hx
        unfold escape
        rw [if_neg hx.1.1.2, if_neg hx.1.1.1, if_neg (hlow 0x0A (by decide)),
          if_neg (hlow 0x0D (by decide)), if_neg (hlow 0x09 (by decide))]
      rw [jsonEscape_cons, hb, ih hx.2]
      rfl

end ServeInfer.InferenceWorker
