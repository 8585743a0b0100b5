import Mathlib.Data.List.TakeDrop
import ServeInfer.Lib.JsonQuote
import ServeInfer.Lib.JsonText

/-!
# Writing values as JSON

`JSON.stringify` of a value, and that `JSON.parse` reads it back. Numbers are named by
the literals that they are written as.
-/

open Utf8 (CodeUnit points encodePoint)

namespace Json

section Writing

variable (numberText : List CodeUnit → List CodeUnit)

mutual

/-- `JSON.stringify`, given the texts of numbers. -/
def stringify : Json → List CodeUnit
  | .null => units "null"
  | .bool b => units (toString b)
  | .num literal => numberText literal
  | .str s => quoteJSONString s
  | .arr items => 0x5B :: (stringifyItems items ++ [0x5D])
  | .obj members => 0x7B :: (stringifyMembers members ++ [0x7D])

def stringifyItems : List Json → List CodeUnit
  | [] => []
  | [item] => stringify item
  | item :: items => stringify item ++ 0x2C :: stringifyItems items

def stringifyMembers : List (List CodeUnit × Json) → List CodeUnit
  | [] => []
  | [(key, v)] => quoteJSONString key ++ 0x3A :: stringify v
  | (key, v) :: members =>
      quoteJSONString key ++ 0x3A :: stringify v ++ 0x2C :: stringifyMembers members

end

end Writing

section Numbers

/-- One digit and more. -/
def IsDigits (x : List CodeUnit) : Prop := x ≠ [] ∧ ∀ u ∈ x, isDigit u = true

/-- No zero in front of other digits. -/
def IsInt (x : List CodeUnit) : Prop := x = [0x30] ∨ IsDigits x ∧ x.head? ≠ some 0x30

def IsFraction (x : List CodeUnit) : Prop := x = [] ∨ ∃ digits, IsDigits digits ∧ x = 0x2E :: digits

def IsExponent (x : List CodeUnit) : Prop :=
  x = [] ∨ ∃ e sign digits, (e = 0x65 ∨ e = 0x45) ∧ (sign = [] ∨ sign = [0x2B] ∨ sign = [0x2D]) ∧
    IsDigits digits ∧ x = e :: (sign ++ digits)

/-- A number as JSON writes it. -/
def IsNumber (x : List CodeUnit) : Prop :=
  ∃ sign int fraction exponent, (sign = [] ∨ sign = [0x2D]) ∧ IsInt int ∧ IsFraction fraction ∧
    IsExponent exponent ∧ x = sign ++ int ++ fraction ++ exponent

/-- What comes next has none of the units. -/
def NotNext (p : CodeUnit → Bool) (rest : List CodeUnit) : Prop :=
  ∀ u more, rest = u :: more → p u = false

/-- A unit that a number may go on with. -/
def inNumber (u : CodeUnit) : Bool :=
  isDigit u || u ∈ ([0x2B, 0x2D, 0x2E, 0x45, 0x65] : List CodeUnit)

variable {x rest : List CodeUnit} {u : CodeUnit} {p q : CodeUnit → Bool}

theorem NotNext.imp (h : NotNext p rest) (hpq : ∀ u, q u = true → p u = true) : NotNext q rest := by
  intro u more heq
  have hp := h u more heq
  cases hq : q u with
  | false => rfl
  | true => rw [hpq u hq] at hp; exact hp

theorem notNext_cons (hu : p u = false) (rest : List CodeUnit) : NotNext p (u :: rest) := by
  rintro v more heq
  rw [← (List.cons.inj heq).1, hu]

theorem parseDigits_append (h : IsDigits x) (hrest : NotNext isDigit rest) :
    parseDigits (x ++ rest) = some (x, rest) := by
  obtain ⟨hne, hdigits⟩ := h
  have htake : rest.takeWhile isDigit = [] := by
    cases rest with
    | nil => rfl
    | cons u more => exact List.takeWhile_cons_of_neg (by simp [hrest u more rfl])
  have hdrop : rest.dropWhile isDigit = rest := by
    cases rest with
    | nil => rfl
    | cons u more => exact List.dropWhile_cons_of_neg (by simp [hrest u more rfl])
  have hempty : x.isEmpty = false := by simpa using hne
  rw [parseDigits, List.span_eq_takeWhile_dropWhile, List.takeWhile_append_of_pos hdigits,
    List.dropWhile_append_of_pos hdigits, htake, hdrop, List.append_nil]
  simp only [hempty, Bool.false_eq_true, if_false]

theorem parseInt_append (h : IsInt x) (hrest : NotNext isDigit rest) :
    parseInt (x ++ rest) = some (x, rest) := by
  rcases h with rfl | ⟨hdigits, hhead⟩
  · rfl
  · have hread := parseDigits_append hdigits hrest
    unfold parseInt
    split
    · rename_i more heq
      obtain ⟨u, x, rfl⟩ := List.exists_cons_of_ne_nil hdigits.1
      exact absurd (congrArg some (List.cons.inj heq).1) hhead
    · exact hread

theorem parseFraction_append (h : IsFraction x) (hrest : NotNext isDigit rest)
    (hpoint : NotNext (· = 0x2E) rest) : parseFraction (x ++ rest) = some (x, rest) := by
  rcases h with rfl | ⟨digits, hdigits, rfl⟩
  · rw [List.nil_append]
    unfold parseFraction
    split
    · rename_i more
      exact absurd (hpoint 0x2E more rfl) (by decide)
    · rfl
  · rw [List.cons_append, parseFraction, parseDigits_append hdigits hrest]
    rfl

theorem parseExponent_append (h : IsExponent x) (hrest : NotNext isDigit rest)
    (he : NotNext (fun u => u = 0x65 || u = 0x45) rest) :
    parseExponent (x ++ rest) = some (x, rest) := by
  rcases h with rfl | ⟨e, sign, digits, hexp, hsign, hdigits, rfl⟩
  · rw [List.nil_append]
    unfold parseExponent
    split
    · rename_i u more
      have hu := he u more rfl
      rw [if_neg (by simpa using hu)]
    · rfl
  · obtain ⟨d, ds, rfl⟩ := List.exists_cons_of_ne_nil hdigits.1
    have hd : isDigit d = true := hdigits.2 d List.mem_cons_self
    have hread := parseDigits_append hdigits hrest
    rw [List.cons_append, parseExponent.eq_def]
    dsimp only
    rw [if_pos hexp]
    rcases hsign with rfl | rfl | rfl
    · have hnosign : ¬ (d = 0x2B ∨ d = 0x2D) := by
        rintro (rfl | rfl)
        · exact absurd hd (by decide)
        · exact absurd hd (by decide)
      rw [List.nil_append, List.cons_append]
      dsimp only
      rw [if_neg hnosign, ← List.cons_append, hread]
      rfl
    · rw [List.singleton_append, List.cons_append]
      dsimp only
      rw [if_pos (.inl rfl), hread]
      rfl
    · rw [List.singleton_append, List.cons_append]
      dsimp only
      rw [if_pos (.inr rfl), hread]
      rfl

/-- The first unit of a number without its sign. -/
theorem IsInt.exists_cons (h : IsInt x) : ∃ u more, x = u :: more ∧ isDigit u = true := by
  rcases h with rfl | ⟨⟨hne, hdigits⟩, -⟩
  · exact ⟨0x30, [], rfl, rfl⟩
  · obtain ⟨u, more, rfl⟩ := List.exists_cons_of_ne_nil hne
    exact ⟨u, more, rfl, hdigits u List.mem_cons_self⟩

/-- Behind a fraction comes an exponent, or the end of the number. -/
theorem notNext_exponent (h : IsExponent x) (hrest : NotNext inNumber rest)
    (hp : ∀ u, p u = true → inNumber u = true) (he : p 0x65 = false) (hE : p 0x45 = false) :
    NotNext p (x ++ rest) := by
  rcases h with rfl | ⟨e, sign, digits, rfl | rfl, -, -, rfl⟩
  · exact hrest.imp hp
  · exact notNext_cons he _
  · exact notNext_cons hE _

/-- Behind the digits comes a fraction, an exponent, or the end of the number. -/
theorem notNext_fraction {y : List CodeUnit} (h : IsFraction x) (hy : IsExponent y)
    (hrest : NotNext inNumber rest) : NotNext isDigit (x ++ (y ++ rest)) := by
  rcases h with rfl | ⟨digits, -, rfl⟩
  · rw [List.nil_append]
    exact notNext_exponent hy hrest (fun u hu => by rw [inNumber, hu, Bool.true_or]) rfl rfl
  · exact notNext_cons rfl _

/-- A number is read up to where it stops. -/
theorem parseNumber_append (h : IsNumber x) (hrest : NotNext inNumber rest) :
    parseNumber (x ++ rest) = some (.num x, rest) := by
  obtain ⟨sign, int, fraction, exponent, hsign, hint, hfraction, hexponent, rfl⟩ := h
  have hdigit : ∀ u, isDigit u = true → inNumber u = true :=
    fun u hu => by rw [inNumber, hu, Bool.true_or]
  have hreadInt : parseInt (int ++ (fraction ++ (exponent ++ rest))) =
      some (int, fraction ++ (exponent ++ rest)) :=
    parseInt_append hint (notNext_fraction hfraction hexponent hrest)
  have hreadFraction : parseFraction (fraction ++ (exponent ++ rest)) =
      some (fraction, exponent ++ rest) :=
    parseFraction_append hfraction (notNext_exponent hexponent hrest hdigit rfl rfl)
      (notNext_exponent hexponent hrest (by simp [inNumber]) rfl rfl)
  have hreadExponent : parseExponent (exponent ++ rest) = some (exponent, rest) :=
    parseExponent_append hexponent (hrest.imp hdigit) (hrest.imp (by simp [inNumber]))
  have hreadSign : parseSign (sign ++ (int ++ (fraction ++ (exponent ++ rest)))) =
      (sign, int ++ (fraction ++ (exponent ++ rest))) := by
    rcases hsign with rfl | rfl
    · obtain ⟨u, more, rfl, hu⟩ := hint.exists_cons
      unfold parseSign
      split
      · rename_i more' heq
        rw [List.nil_append, List.cons_append] at heq
        rw [(List.cons.inj heq).1] at hu
        exact absurd hu (by decide)
      · rfl
    · rfl
  rw [List.append_assoc, List.append_assoc, List.append_assoc, parseNumber, hreadSign]
  dsimp only
  rw [hreadInt]
  dsimp only [Option.bind_eq_bind, Option.bind_some]
  rw [hreadFraction]
  dsimp only [Option.bind_eq_bind, Option.bind_some]
  rw [hreadExponent]
  rfl

end Numbers

section Strings

variable {s t : List CodeUnit} {n : ℕ}

/-- The units of a string's points. -/
theorem flatMap_encodePoint_points (s : List CodeUnit) : (points s).flatMap encodePoint = s := by
  fun_induction points s with
  | case1 => rfl
  | case2 u =>
      have hlt := u.toNat_lt
      rw [List.flatMap_singleton, encodePoint, if_pos (by omega), UInt16.ofNat_toNat]
  | case3 u v rest hpair ih =>
      simp only [Bool.and_eq_true, Utf8.isHigh_iff, Utf8.isLow_iff] at hpair
      obtain ⟨⟨hlow, hhigh⟩, hlow', hhigh'⟩ := hpair
      have hfirst : 0xD800 + (Utf8.joinPair u v - 0x10000) / 0x400 = u.toNat := by
        unfold Utf8.joinPair
        omega
      have hsecond : 0xDC00 + (Utf8.joinPair u v - 0x10000) % 0x400 = v.toNat := by
        unfold Utf8.joinPair
        omega
      have hge : ¬ Utf8.joinPair u v < 0x10000 := by
        unfold Utf8.joinPair
        omega
      rw [List.flatMap_cons, ih, encodePoint, if_neg hge, hfirst, hsecond, UInt16.ofNat_toNat,
        UInt16.ofNat_toNat]
      rfl
  | case4 u v rest _ ih =>
      have hlt := u.toNat_lt
      rw [List.flatMap_cons, ih, encodePoint, if_pos (by omega), UInt16.ofNat_toNat]
      rfl

/-- A unit of a point is the point, or half of a surrogate pair. -/
theorem toNat_mem_encodePoint {c : CodeUnit} (hn : n < 0x110000) (hc : c ∈ encodePoint n) :
    c.toNat = n ∨ 0xD800 ≤ c.toNat := by
  unfold encodePoint at hc
  split at hc
  · obtain rfl := List.mem_singleton.mp hc
    rw [UInt16.toNat_ofNat']
    omega
  · simp only [List.mem_cons, List.not_mem_nil, or_false] at hc
    rcases hc with rfl | rfl
    · rw [UInt16.toNat_ofNat']
      omega
    · rw [UInt16.toNat_ofNat']
      omega

theorem hexDigit_hexUnit : ∀ d : Fin 0x10, hexDigit (hexUnit d) = some d.val := by decide

theorem hex4_unicodeEscape (hn : n < 0x10000) :
    hex4 (hexUnit (n / 0x1000 % 0x10)) (hexUnit (n / 0x100 % 0x10)) (hexUnit (n / 0x10 % 0x10))
      (hexUnit (n % 0x10)) = some (.ofNat n) := by
  have hdigit : ∀ m : ℕ, hexDigit (hexUnit (m % 0x10)) = some (m % 0x10) :=
    fun m => hexDigit_hexUnit ⟨m % 0x10, Nat.mod_lt m (by decide)⟩
  have hvalue : ((n / 0x1000 % 0x10 * 16 + n / 0x100 % 0x10) * 16 + n / 0x10 % 0x10) * 16 +
      n % 0x10 = n := by omega
  rw [hex4, hdigit, hdigit, hdigit, hdigit]
  exact congrArg (fun m => some (UInt16.ofNat m)) hvalue

/-- An escape by number reads as its unit. -/
theorem readsInside_unicodeEscape (hn : n < 0x10000) :
    ReadsInside (unicodeEscape n) [.ofNat n] := by
  intro rest
  show parseString (backslash :: 0x75 :: hexUnit (n / 0x1000 % 0x10) ::
    hexUnit (n / 0x100 % 0x10) :: hexUnit (n / 0x10 % 0x10) :: hexUnit (n % 0x10) :: rest) = _
  rw [parseString.eq_def]
  dsimp only
  rw [if_neg (by decide), if_pos rfl]
  show (if (0x75 : CodeUnit) = 0x75 then _ else none) = _
  rw [if_pos rfl, hex4_unicodeEscape hn]
  rfl

/-- The text of a point reads as the point. -/
theorem readsInside_quotePoint (hn : n < 0x110000) :
    ReadsInside (quotePoint n) (encodePoint n) := by
  unfold quotePoint
  split_ifs with hb ht hl hf hr hquote hbackslash hhex
  · subst hb
    exact readsInside_escaped (by decide)
  · subst ht
    exact readsInside_escaped (by decide)
  · subst hl
    exact readsInside_escaped (by decide)
  · subst hf
    exact readsInside_escaped (by decide)
  · subst hr
    exact readsInside_escaped (by decide)
  · subst hquote
    exact readsInside_escaped (by decide)
  · subst hbackslash
    exact readsInside_escaped (by decide)
  · have hlt : n < 0x10000 := by omega
    rw [encodePoint, if_pos hlt]
    exact readsInside_unicodeEscape hlt
  · obtain ⟨hcontrol, -⟩ := not_or.mp hhex
    apply readsInside_self
    intro c hc
    refine ⟨?_, ?_, ?_⟩
    · rintro rfl
      rcases toNat_mem_encodePoint hn hc with heq | hle
      · exact hquote heq.symm
      · exact absurd hle (by decide)
    · rintro rfl
      rcases toNat_mem_encodePoint hn hc with heq | hle
      · exact hbackslash heq.symm
      · exact absurd hle (by decide)
    · intro hlt
      have hnat : c.toNat < 0x20 := hlt
      have hcases := toNat_mem_encodePoint hn hc
      omega

/-- A string is read as it was. -/
theorem readsInside_quoteJSONString (s : List CodeUnit) :
    ReadsInside ((points s).flatMap quotePoint) s := by
  have hread : ∀ ns : List ℕ, (∀ n ∈ ns, n < 0x110000) →
      ReadsInside (ns.flatMap quotePoint) (ns.flatMap encodePoint) := by
    intro ns
    induction ns with
    | nil => exact fun _ => readsInside_nil
    | cons n ns ih =>
        intro hns
        rw [List.flatMap_cons, List.flatMap_cons]
        exact (readsInside_quotePoint (hns n List.mem_cons_self)).append
          (ih fun m hm => hns m (List.mem_cons_of_mem n hm))
  have hpoints := hread (points s) fun _ => Utf8.lt_of_mem_points
  rwa [flatMap_encodePoint_points] at hpoints

end Strings

section Pieces

/-- The text of a value, up to what comes behind it. -/
def ReadsTo (t : List CodeUnit) (v : Json) : Prop :=
  ∀ fuel rest, t.length < fuel → NotNext inNumber rest →
    parseValue fuel (t ++ rest) = some (v, rest)

/-- The inside of a key, and the text of its value. -/
def ReadsEntry (m : List CodeUnit × List CodeUnit) (n : List CodeUnit × Json) : Prop :=
  ReadsInside m.1 n.1 ∧ ReadsTo m.2 n.2

/-- A text that begins neither with space nor with the end of an array. -/
def Starts (t : List CodeUnit) : Prop := ∃ u more, t = u :: more ∧ isSpace u = false ∧ u ≠ 0x5D

/-- Items with commas between them. -/
def itemsText : List (List CodeUnit) → List CodeUnit
  | [] => []
  | [t] => t
  | t :: ts => t ++ 0x2C :: itemsText ts

def arrayText (ts : List (List CodeUnit)) : List CodeUnit := 0x5B :: (itemsText ts ++ [0x5D])

variable {t x rest : List CodeUnit} {v : Json} {fuel : ℕ} {ts : List (List CodeUnit)}
  {vs : List Json} {ms : List (List CodeUnit × List CodeUnit)} {ns : List (List CodeUnit × Json)}

theorem Reads.readsTo (h : Reads t v) : ReadsTo t v := by
  intro fuel rest hfuel _
  obtain ⟨fuel, rfl⟩ := Nat.exists_eq_succ_of_ne_zero (Nat.ne_zero_of_lt hfuel)
  exact h fuel rest

theorem reads_null : Reads (units "null") .null := by
  intro fuel rest
  have hword := parseWord_append "null" .null rest
  rw [parseValue]
  exact hword

theorem isSpace_of_isDigit {u : CodeUnit} (hu : isDigit u = true) : isSpace u = false := by
  rw [← Bool.not_eq_true]
  intro hspace
  simp only [isSpace, Bool.or_eq_true, decide_eq_true_eq] at hspace
  rcases hspace with ((rfl | rfl) | rfl) | rfl <;> exact absurd hu (by decide)

theorem IsNumber.exists_cons (h : IsNumber x) :
    ∃ u more, x = u :: more ∧ (u = 0x2D ∨ isDigit u = true) := by
  obtain ⟨sign, int, fraction, exponent, rfl | rfl, hint, -, -, rfl⟩ := h
  · obtain ⟨u, more, rfl, hu⟩ := hint.exists_cons
    exact ⟨u, _, rfl, .inr hu⟩
  · exact ⟨0x2D, _, rfl, .inl rfl⟩

theorem IsNumber.starts (h : IsNumber x) : Starts x := by
  obtain ⟨u, more, rfl, hu⟩ := h.exists_cons
  refine ⟨u, more, rfl, ?_⟩
  rcases hu with rfl | hdigit
  · exact ⟨by decide, by decide⟩
  · refine ⟨isSpace_of_isDigit hdigit, ?_⟩
    rintro rfl
    exact absurd hdigit (by decide)

theorem readsTo_number (h : IsNumber x) : ReadsTo x (.num x) := by
  intro fuel rest hfuel hrest
  obtain ⟨fuel, rfl⟩ := Nat.exists_eq_succ_of_ne_zero (Nat.ne_zero_of_lt hfuel)
  have hread := parseNumber_append h hrest
  obtain ⟨u, more, rfl, hu⟩ := h.exists_cons
  have hspace : isSpace u = false := by
    rcases hu with rfl | hdigit
    · decide
    · exact isSpace_of_isDigit hdigit
  have hne : ∀ d : CodeUnit, d ≠ 0x2D → isDigit d = false → u ≠ d := by
    rintro d hsign hdigit rfl
    rcases hu with rfl | hu
    · exact hsign rfl
    · rw [hdigit] at hu
      cases hu
  rw [List.cons_append, parseValue, skipSpace_cons hspace]
  dsimp only
  rw [if_neg (hne _ (by decide) (by decide)), if_neg (hne _ (by decide) (by decide)),
    if_neg (hne _ (by decide) (by decide)), if_neg (hne _ (by decide) (by decide)),
    if_neg (hne _ (by decide) (by decide)), if_neg (hne _ (by decide) (by decide))]
  exact hread

theorem itemsText_cons (hts : ts ≠ []) (t : List CodeUnit) :
    itemsText (t :: ts) = t ++ 0x2C :: itemsText ts := by
  cases ts with
  | nil => exact absurd rfl hts
  | cons t' ts => rfl

theorem parseItems_itemsText (h : List.Forall₂ ReadsTo ts vs) (hts : ts ≠ [])
    (hfuel : (itemsText ts).length + 1 < fuel) (rest : List CodeUnit) :
    parseItems fuel (itemsText ts ++ 0x5D :: rest) = some (vs, rest) := by
  induction h generalizing fuel with
  | nil => exact absurd rfl hts
  | @cons t v ts vs hv hrest ih =>
      obtain ⟨fuel, rfl⟩ := Nat.exists_eq_succ_of_ne_zero (Nat.ne_zero_of_lt hfuel)
      cases hrest with
      | nil =>
          have hread := hv fuel (0x5D :: rest) (Nat.lt_of_add_lt_add_right hfuel)
            (notNext_cons rfl rest)
          show parseItems _ (t ++ 0x5D :: rest) = _
          rw [parseItems, hread, Option.bind_some]
          rfl
      | @cons t' v' ts vs hv' hrest =>
          rw [itemsText_cons (by simp), List.length_append, List.length_cons] at hfuel
          have hread := hv fuel (0x2C :: (itemsText (t' :: ts) ++ 0x5D :: rest)) (by omega)
            (notNext_cons rfl _)
          have hlater : parseItems fuel (itemsText (t' :: ts) ++ 0x5D :: rest) =
              some (v' :: vs, rest) := ih (by simp) (by omega)
          rw [itemsText_cons (by simp), List.append_assoc, List.cons_append, parseItems, hread,
            Option.bind_some]
          dsimp only
          rw [skipSpace_cons (by decide)]
          show (parseItems fuel (itemsText (t' :: ts) ++ 0x5D :: rest)).map _ = _
          rw [hlater]
          rfl

/-- An array of texts that read. -/
theorem readsTo_array (h : List.Forall₂ ReadsTo ts vs) (hstart : ∀ t ∈ ts, Starts t) :
    ReadsTo (arrayText ts) (.arr vs) := by
  intro fuel rest hfuel _
  rw [arrayText, List.length_cons, List.length_append, List.length_singleton] at hfuel
  obtain ⟨fuel, rfl⟩ := Nat.exists_eq_succ_of_ne_zero (Nat.ne_zero_of_lt hfuel)
  rw [arrayText, List.cons_append, List.append_assoc, List.singleton_append]
  cases h with
  | nil => rfl
  | @cons t v ts vs hv hrest =>
      have hread : parseItems fuel (itemsText (t :: ts) ++ 0x5D :: rest) = some (v :: vs, rest) :=
        parseItems_itemsText (.cons hv hrest) (by simp) (by omega) rest
      obtain ⟨u, more, htext, hspace, hu⟩ := hstart t List.mem_cons_self
      obtain ⟨more', hmore⟩ : ∃ more', itemsText (t :: ts) ++ 0x5D :: rest = u :: more' := by
        cases ts with
        | nil => exact ⟨_, congrArg (· ++ 0x5D :: rest) htext⟩
        | cons t' ts =>
            rw [itemsText_cons (by simp), htext]
            exact ⟨_, rfl⟩
      rw [hmore] at hread ⊢
      rw [parseValue, skipSpace_cons (by decide)]
      dsimp only
      rw [if_neg (by decide), if_neg (by decide), if_pos rfl, skipSpace_cons hspace]
      split
      · rename_i heq
        exact absurd (List.cons.inj heq).1 hu
      · rw [hread]
        rfl

theorem parseMembers_entries (h : List.Forall₂ ReadsEntry ms ns) (hms : ms ≠ [])
    (hfuel : (membersText ms).length + 1 < fuel) (rest : List CodeUnit) :
    parseMembers fuel (membersText ms ++ 0x7D :: rest) = some (ns, rest) := by
  induction h generalizing fuel with
  | nil => exact absurd rfl hms
  | @cons m n ms ns hm hrest ih =>
      obtain ⟨hkey, hvalue⟩ := hm
      obtain ⟨fuel, rfl⟩ := Nat.exists_eq_succ_of_ne_zero (Nat.ne_zero_of_lt hfuel)
      have hlength : m.2.length < (memberText m).length := by
        rw [memberText, List.length_append, List.length_cons]
        omega
      cases hrest with
      | nil =>
          have hlt : (memberText m).length + 1 < fuel + 1 := hfuel
          have hread := hvalue fuel (0x7D :: rest) (by omega) (notNext_cons rfl rest)
          show parseMembers _ (memberText m ++ _) = _
          rw [memberText, List.append_assoc, List.cons_append, parseMembers_quoted hkey, hread,
            Option.bind_some, afterMember_brace]
      | @cons m' n' ms ns hm' hrest =>
          rw [membersText_cons m (by simp), List.length_append, List.length_cons] at hfuel
          have hread := hvalue fuel (0x2C :: (membersText (m' :: ms) ++ 0x7D :: rest)) (by omega)
            (notNext_cons rfl _)
          have hlater : parseMembers fuel (membersText (m' :: ms) ++ 0x7D :: rest) =
              some (n' :: ns, rest) := ih (by simp) (by omega)
          rw [membersText_cons m (by simp), memberText, List.append_assoc, List.append_assoc,
            List.cons_append, List.cons_append, parseMembers_quoted hkey, hread,
            Option.bind_some, afterMember_comma, hlater]
          rfl

/-- An object of texts that read. -/
theorem readsTo_object (h : List.Forall₂ ReadsEntry ms ns) : ReadsTo (objectText ms) (.obj ns) := by
  intro fuel rest hfuel _
  rw [objectText, List.length_cons, List.length_append, List.length_singleton] at hfuel
  obtain ⟨fuel, rfl⟩ := Nat.exists_eq_succ_of_ne_zero (Nat.ne_zero_of_lt hfuel)
  rw [objectText, List.cons_append, List.append_assoc, List.singleton_append]
  by_cases hms : ms = []
  · subst hms
    cases h
    rfl
  · rw [parseValue_brace hms, parseMembers_entries h hms (by omega)]
    rfl

/-- A text that reads, with nothing but space behind it. -/
theorem ReadsTo.parse (h : ReadsTo t v) (hspace : skipSpace rest = [])
    (hrest : NotNext inNumber rest) : Json.parse (t ++ rest) = some v := by
  have hread := h ((t ++ rest).length + 1) rest (by rw [List.length_append]; omega) hrest
  rw [Json.parse, hread]
  dsimp only
  rw [hspace]
  rfl

end Pieces

section Values

variable {numberText : List CodeUnit → List CodeUnit} {items : List Json}
  {members : List (List CodeUnit × Json)} {v : Json}

variable (numberText) in
mutual

/-- A value whose numbers are named by the literals that they are written as. -/
def IsValue : Json → Prop
  | .null => True
  | .bool _ => True
  | .num literal => IsNumber literal ∧ numberText literal = literal
  | .str _ => True
  | .arr items => AreItems items
  | .obj members => AreMembers members

def AreItems : List Json → Prop
  | [] => True
  | item :: items => IsValue item ∧ AreItems items

def AreMembers : List (List CodeUnit × Json) → Prop
  | [] => True
  | (_, v) :: members => IsValue v ∧ AreMembers members

end

theorem starts_stringify (hv : IsValue numberText v) : Starts (stringify numberText v) := by
  cases v with
  | null => exact ⟨_, _, rfl, by decide, by decide⟩
  | bool b => cases b <;> exact ⟨_, _, rfl, by decide, by decide⟩
  | num literal =>
      rw [IsValue] at hv
      rw [stringify, hv.2]
      exact hv.1.starts
  | str s => exact ⟨quote, _, rfl, by decide, by decide⟩
  | arr items => exact ⟨_, _, by rw [stringify], by decide, by decide⟩
  | obj members => exact ⟨_, _, by rw [stringify], by decide, by decide⟩

theorem stringifyItems_cons (hitems : items ≠ []) (v : Json) :
    stringifyItems numberText (v :: items) =
      stringify numberText v ++ 0x2C :: stringifyItems numberText items := by
  cases items with
  | nil => exact absurd rfl hitems
  | cons item items => rw [stringifyItems]; simp

theorem stringifyMembers_cons (hmembers : members ≠ []) (key : List CodeUnit) (v : Json) :
    stringifyMembers numberText ((key, v) :: members) =
      quoteJSONString key ++ 0x3A :: stringify numberText v ++
        0x2C :: stringifyMembers numberText members := by
  cases members with
  | nil => exact absurd rfl hmembers
  | cons member members => rw [stringifyMembers]; simp

theorem stringifyItems_eq (items : List Json) :
    stringifyItems numberText items = itemsText (items.map (stringify numberText)) := by
  induction items with
  | nil => rw [stringifyItems]; rfl
  | cons v items ih =>
      by_cases hmore : items = []
      · subst hmore
        rw [stringifyItems]
        rfl
      · rw [stringifyItems_cons hmore, ih, List.map_cons, itemsText_cons (by simpa using hmore)]

/-- A member as `stringify` writes it. -/
def entryText (numberText : List CodeUnit → List CodeUnit) (m : List CodeUnit × Json) :
    List CodeUnit × List CodeUnit :=
  ((points m.1).flatMap quotePoint, stringify numberText m.2)

theorem stringifyMembers_eq (members : List (List CodeUnit × Json)) :
    stringifyMembers numberText members = membersText (members.map (entryText numberText)) := by
  induction members with
  | nil => rw [stringifyMembers]; rfl
  | cons m members ih =>
      obtain ⟨key, v⟩ := m
      by_cases hmore : members = []
      · subst hmore
        rw [stringifyMembers]
        rfl
      · rw [stringifyMembers_cons hmore, ih, List.map_cons,
          membersText_cons _ (by simpa using hmore)]
        rfl

mutual

/-- A value is read back, up to what comes behind it. -/
theorem readsTo_stringify (v : Json) (hv : IsValue numberText v) :
    ReadsTo (stringify numberText v) v := by
  cases v with
  | null =>
      rw [stringify]
      exact reads_null.readsTo
  | bool b =>
      rw [stringify]
      exact (reads_bool b).readsTo
  | num literal =>
      rw [IsValue] at hv
      rw [stringify, hv.2]
      exact readsTo_number hv.1
  | str s =>
      rw [stringify]
      exact (reads_quoted (readsInside_quoteJSONString s)).readsTo
  | arr items =>
      rw [IsValue] at hv
      obtain ⟨hread, hstart⟩ := readsTo_items items hv
      rw [stringify, stringifyItems_eq]
      exact readsTo_array hread hstart
  | obj members =>
      rw [IsValue] at hv
      rw [stringify, stringifyMembers_eq]
      exact readsTo_object (readsEntry_members members hv)

theorem readsTo_items (items : List Json) (hv : AreItems numberText items) :
    List.Forall₂ ReadsTo (items.map (stringify numberText)) items ∧
      ∀ t ∈ items.map (stringify numberText), Starts t := by
  cases items with
  | nil => exact ⟨.nil, by simp⟩
  | cons v items =>
      rw [AreItems] at hv
      obtain ⟨hread, hstart⟩ := readsTo_items items hv.2
      rw [List.map_cons]
      refine ⟨.cons (readsTo_stringify v hv.1) hread, ?_⟩
      rw [List.forall_mem_cons]
      exact ⟨starts_stringify hv.1, hstart⟩

theorem readsEntry_members (members : List (List CodeUnit × Json))
    (hv : AreMembers numberText members) :
    List.Forall₂ ReadsEntry (members.map (entryText numberText)) members := by
  cases members with
  | nil => exact .nil
  | cons member members =>
      obtain ⟨key, v⟩ := member
      rw [AreMembers] at hv
      rw [List.map_cons]
      refine .cons ⟨readsInside_quoteJSONString key, readsTo_stringify v hv.1⟩ ?_
      exact readsEntry_members members hv.2

end

/-- `JSON.parse` gives back what `JSON.stringify` was given. -/
theorem parse_stringify (hv : IsValue numberText v) :
    parse (stringify numberText v) = some v := by
  have hstop : NotNext inNumber ([] : List CodeUnit) := fun u more h => absurd h (by simp)
  have hread := (readsTo_stringify v hv).parse rfl hstop
  rwa [List.append_nil] at hread

end Values

section Texts

variable {numberText : List CodeUnit → List CodeUnit} {s t x : List CodeUnit} {n : ℕ} {v : Json}

/-- The units of a text of characters without control characters. -/
structure Printed (s : List CodeUnit) : Prop where
  text : ∃ t, s = Utf8.utf16 t
  plain : ∀ u ∈ s, 0x20 ≤ u.toNat

theorem Printed.nil : Printed [] := ⟨⟨[], rfl⟩, by simp⟩

theorem Printed.append (hs : Printed s) (ht : Printed t) : Printed (s ++ t) := by
  obtain ⟨⟨cs, rfl⟩, hplain⟩ := hs
  obtain ⟨⟨ds, rfl⟩, hplain'⟩ := ht
  refine ⟨⟨cs ++ ds, (Utf8.utf16_append cs ds).symm⟩, fun u hu => ?_⟩
  rcases List.mem_append.mp hu with hu | hu
  · exact hplain u hu
  · exact hplain' u hu

theorem printed_flatMap {f : ℕ → List CodeUnit} {ns : List ℕ} (h : ∀ n ∈ ns, Printed (f n)) :
    Printed (ns.flatMap f) := by
  induction ns with
  | nil => exact .nil
  | cons n ns ih =>
      rw [List.flatMap_cons]
      exact (h n List.mem_cons_self).append (ih fun m hm => h m (List.mem_cons_of_mem n hm))

/-- ASCII from the blank on. -/
theorem printed_ascii (hs : ∀ u ∈ s, 0x20 ≤ u.toNat ∧ u.toNat < 0x80) : Printed s := by
  refine ⟨⟨s.map fun u => Char.ofNat u.toNat, ?_⟩, fun u hu => (hs u hu).1⟩
  induction s with
  | nil => rfl
  | cons u s ih =>
      have hu := (hs u List.mem_cons_self).2
      have hvalid : u.toNat.isValidChar := .inl (by omega)
      have hnat := Utf8.toNat_charOfNat hvalid
      rw [List.map_cons, Utf8.utf16, List.flatMap_cons, hnat, encodePoint, if_pos (by omega),
        UInt16.ofNat_toNat, ← Utf8.utf16, ← ih fun w hw => hs w (List.mem_cons_of_mem u hw)]
      rfl

theorem hexUnit_ascii : ∀ d : Fin 0x10, 0x20 ≤ (hexUnit d).toNat ∧ (hexUnit d).toNat < 0x80 := by
  decide

theorem printed_unicodeEscape (n : ℕ) : Printed (unicodeEscape n) := by
  have hdigit : ∀ m : ℕ, 0x20 ≤ (hexUnit (m % 0x10)).toNat ∧ (hexUnit (m % 0x10)).toNat < 0x80 :=
    fun m => hexUnit_ascii ⟨m % 0x10, Nat.mod_lt m (by decide)⟩
  apply Printed.append
  · exact printed_ascii (by decide)
  · apply printed_ascii
    simp only [List.forall_mem_cons]
    exact ⟨hdigit _, hdigit _, hdigit _, hdigit _, by simp⟩

theorem printed_quotePoint (hn : n < 0x110000) : Printed (quotePoint n) := by
  unfold quotePoint
  split_ifs with hb ht hl hf hr hquote hbackslash hhex
  · exact printed_ascii (by decide)
  · exact printed_ascii (by decide)
  · exact printed_ascii (by decide)
  · exact printed_ascii (by decide)
  · exact printed_ascii (by decide)
  · exact printed_ascii (by decide)
  · exact printed_ascii (by decide)
  · exact printed_unicodeEscape n
  · obtain ⟨hcontrol, hplain⟩ := not_or.mp hhex
    obtain ⟨c, hc⟩ | hsurrogate := Utf8.char_or_surrogate hn
    · refine ⟨⟨[c], ?_⟩, fun u hu => ?_⟩
      · rw [Utf8.utf16, List.flatMap_singleton, hc]
      · have hcases := toNat_mem_encodePoint hn hu
        omega
    · exact absurd hsurrogate hplain

theorem printed_quoteJSONString (s : List CodeUnit) : Printed (quoteJSONString s) :=
  ((printed_ascii (by decide)).append
    (printed_flatMap fun _ hn => printed_quotePoint (Utf8.lt_of_mem_points hn))).append
    (printed_ascii (by decide))

theorem IsDigits.printed (h : IsDigits x) : Printed x := by
  apply printed_ascii
  intro u hu
  have hdigit := h.2 u hu
  simp only [isDigit, Bool.and_eq_true, decide_eq_true_eq] at hdigit
  obtain ⟨hlow, hhigh⟩ := hdigit
  have hlow' : 0x30 ≤ u.toNat := hlow
  have hhigh' : u.toNat ≤ 0x39 := hhigh
  omega

theorem IsNumber.printed (h : IsNumber x) : Printed x := by
  obtain ⟨sign, int, fraction, exponent, hsign, hint, hfraction, hexponent, rfl⟩ := h
  have hsign : Printed sign := by
    rcases hsign with rfl | rfl
    · exact .nil
    · exact printed_ascii (by decide)
  have hint : Printed int := by
    rcases hint with rfl | ⟨hdigits, -⟩
    · exact printed_ascii (by decide)
    · exact hdigits.printed
  have hfraction : Printed fraction := by
    rcases hfraction with rfl | ⟨digits, hdigits, rfl⟩
    · exact .nil
    · exact (printed_ascii (s := [0x2E]) (by decide)).append hdigits.printed
  have hexponent : Printed exponent := by
    rcases hexponent with rfl | ⟨e, sign, digits, he, hsign, hdigits, rfl⟩
    · exact .nil
    · have he : Printed [e] := by rcases he with rfl | rfl <;> exact printed_ascii (by decide)
      have hsign : Printed sign := by
        rcases hsign with rfl | rfl | rfl
        · exact .nil
        · exact printed_ascii (by decide)
        · exact printed_ascii (by decide)
      exact he.append (hsign.append hdigits.printed)
  exact ((hsign.append hint).append hfraction).append hexponent

mutual

/-- A written value is a text of one line. -/
theorem printed_stringify (v : Json) (hv : IsValue numberText v) :
    Printed (stringify numberText v) := by
  cases v with
  | null =>
      rw [stringify]
      exact printed_ascii (by decide)
  | bool b =>
      rw [stringify]
      cases b <;> exact printed_ascii (by decide)
  | num literal =>
      rw [IsValue] at hv
      rw [stringify, hv.2]
      exact hv.1.printed
  | str s =>
      rw [stringify]
      exact printed_quoteJSONString s
  | arr items =>
      rw [IsValue] at hv
      rw [stringify]
      exact (printed_ascii (s := [0x5B]) (by decide)).append
        ((printed_stringifyItems items hv).append (printed_ascii (by decide)))
  | obj members =>
      rw [IsValue] at hv
      rw [stringify]
      exact (printed_ascii (s := [0x7B]) (by decide)).append
        ((printed_stringifyMembers members hv).append (printed_ascii (by decide)))

theorem printed_stringifyItems (items : List Json) (hv : AreItems numberText items) :
    Printed (stringifyItems numberText items) := by
  cases items with
  | nil => exact .nil
  | cons v items =>
      rw [AreItems] at hv
      by_cases hmore : items = []
      · subst hmore
        rw [stringifyItems]
        exact printed_stringify v hv.1
      · rw [stringifyItems_cons hmore]
        exact (printed_stringify v hv.1).append
          ((printed_ascii (s := [0x2C]) (by decide)).append (printed_stringifyItems items hv.2))

theorem printed_stringifyMembers (members : List (List CodeUnit × Json))
    (hv : AreMembers numberText members) : Printed (stringifyMembers numberText members) := by
  cases members with
  | nil => exact .nil
  | cons member members =>
      obtain ⟨key, v⟩ := member
      rw [AreMembers] at hv
      have hmember : Printed (quoteJSONString key ++ 0x3A :: stringify numberText v) :=
        (printed_quoteJSONString key).append
          ((printed_ascii (s := [0x3A]) (by decide)).append (printed_stringify v hv.1))
      by_cases hmore : members = []
      · subst hmore
        rw [stringifyMembers]
        exact hmember
      · rw [stringifyMembers_cons hmore]
        exact hmember.append ((printed_ascii (s := [0x2C]) (by decide)).append
          (printed_stringifyMembers members hv.2))

end

end Texts

end Json
