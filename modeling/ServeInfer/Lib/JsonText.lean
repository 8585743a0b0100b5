import ServeInfer.Lib.Json

/-!
# Texts that a parser reads

Pieces of JSON text by what the parser makes of them wherever they stand: the inside
of a string, a value, the members of an object. A piece that is broken breaks the
text that it stands in.
-/

open Utf8 (CodeUnit)

namespace Json

/-- A unit that stands for itself in a string. -/
def Plain (u : CodeUnit) : Prop := u ≠ quote ∧ u ≠ backslash ∧ ¬ u < 0x20

instance (u : CodeUnit) : Decidable (Plain u) := inferInstanceAs (Decidable (_ ∧ _ ∧ _))

/-- The inside of a string that reads as a text. -/
def ReadsInside (t s : List CodeUnit) : Prop :=
  ∀ rest, parseString (t ++ rest) = (parseString rest).map fun e => (s ++ e.1, e.2)

/-- The inside of a string that cannot be read. -/
def BrokenInside (t : List CodeUnit) : Prop := ∀ rest, parseString (t ++ rest) = none

/-- The text of a value. -/
def Reads (t : List CodeUnit) (v : Json) : Prop :=
  ∀ fuel rest, parseValue (fuel + 1) (t ++ rest) = some (v, rest)

/-- The text of no value. -/
def Broken (t : List CodeUnit) : Prop := ∀ fuel rest, parseValue fuel (t ++ rest) = none

variable {t t' s s' u rest : List CodeUnit} {c e : CodeUnit} {v : Json} {fuel : ℕ}

section Strings

theorem readsInside_nil : ReadsInside [] [] := by
  intro rest
  cases h : parseString rest <;> simp [h]

theorem ReadsInside.append (h : ReadsInside t s) (h' : ReadsInside t' s') :
    ReadsInside (t ++ t') (s ++ s') := by
  intro rest
  rw [List.append_assoc, h, h', Option.map_map]
  simp only [Function.comp_def, List.append_assoc]

theorem ReadsInside.broken (h : ReadsInside t s) (h' : BrokenInside t') : BrokenInside (t ++ t') := by
  intro rest
  rw [List.append_assoc, h, h', Option.map_none]

theorem BrokenInside.append (h : BrokenInside t) (t' : List CodeUnit) : BrokenInside (t ++ t') := by
  intro rest
  rw [List.append_assoc, h]

theorem readsInside_plain (hc : Plain c) : ReadsInside [c] [c] := by
  obtain ⟨hquote, hbackslash, hcontrol⟩ := hc
  intro rest
  rw [List.singleton_append, parseString.eq_def]
  dsimp only
  rw [if_neg hquote, if_neg hbackslash, if_neg hcontrol]
  rfl

/-- A text of plain units stands for itself. -/
theorem readsInside_self (ht : ∀ c ∈ t, Plain c) : ReadsInside t t := by
  induction t with
  | nil => exact readsInside_nil
  | cons c t ih =>
      have hrest := ih fun d hd => ht d (List.mem_cons_of_mem c hd)
      exact (readsInside_plain (ht c List.mem_cons_self)).append hrest

/-- Two units that stand for one. -/
theorem readsInside_escaped (he : escaped e = some c) : ReadsInside [backslash, e] [c] := by
  intro rest
  have hquote : backslash ≠ quote := by decide
  rw [List.cons_append, List.singleton_append, parseString.eq_def]
  dsimp only
  rw [if_neg hquote, if_pos rfl, he]
  rfl

/-- A string holds no raw control character. -/
theorem brokenInside_control (hc : c < 0x20) (hquote : c ≠ quote) (hbackslash : c ≠ backslash) :
    BrokenInside [c] := by
  intro rest
  rw [List.singleton_append, parseString.eq_def]
  dsimp only
  rw [if_neg hquote, if_neg hbackslash, if_pos hc]

theorem parseString_quote (rest : List CodeUnit) : parseString (quote :: rest) = some ([], rest) := by
  rw [parseString.eq_def]
  exact if_pos rfl

theorem ReadsInside.parseString (h : ReadsInside t s) (rest : List CodeUnit) :
    Json.parseString (t ++ quote :: rest) = some (s, rest) := by
  rw [h, parseString_quote, Option.map_some, List.append_nil]

/-- What a string that reads starts with: its end, an escape, or a plain unit. -/
inductive StringStart (c : CodeUnit) (t s rest : List CodeUnit) : Prop
  | close (hc : c = quote) (hs : s = []) (hrest : rest = t)
  | escape {e d : CodeUnit} {t' s' : List CodeUnit} (hc : c = backslash) (ht : t = e :: t') (he : escaped e = some d)
      (hs : s = d :: s') (h : parseString t' = some (s', rest))
  | hex {x y z w d : CodeUnit} {t' s' : List CodeUnit} (hc : c = backslash) (ht : t = 0x75 :: x :: y :: z :: w :: t')
      (hx : hex4 x y z w = some d) (hs : s = d :: s') (h : parseString t' = some (s', rest))
  | plain {s' : List CodeUnit} (hc : Plain c) (hs : s = c :: s') (h : parseString t = some (s', rest))

theorem stringStart (h : parseString (c :: t) = some (s, rest)) : StringStart c t s rest := by
  rw [parseString.eq_def] at h
  dsimp only at h
  by_cases hquote : c = quote
  · rw [if_pos hquote] at h
    obtain ⟨rfl, rfl⟩ := Prod.mk.inj (Option.some.inj h)
    exact .close hquote rfl rfl
  rw [if_neg hquote] at h
  by_cases hbackslash : c = backslash
  · rw [if_pos hbackslash] at h
    cases t with
    | nil => cases h
    | cons e t =>
        dsimp only at h
        cases he : escaped e with
        | some d =>
            rw [he] at h
            obtain ⟨⟨s', rest'⟩, hrest, heq⟩ := Option.map_eq_some_iff.mp h
            obtain ⟨rfl, rfl⟩ := Prod.mk.inj heq
            exact .escape hbackslash rfl he rfl hrest
        | none =>
            rw [he] at h
            obtain _ | ⟨x, _ | ⟨y, _ | ⟨z, _ | ⟨w, t⟩⟩⟩⟩ := t
            · cases h
            · cases h
            · cases h
            · cases h
            · dsimp only at h
              by_cases hu : e = 0x75
              · subst hu
                rw [if_pos rfl] at h
                obtain ⟨d, hd, hmore⟩ := Option.bind_eq_some_iff.mp h
                obtain ⟨⟨s', rest'⟩, hrest, heq⟩ := Option.map_eq_some_iff.mp hmore
                obtain ⟨rfl, rfl⟩ := Prod.mk.inj heq
                exact .hex hbackslash rfl hd rfl hrest
              · rw [if_neg hu] at h
                cases h
  · rw [if_neg hbackslash] at h
    by_cases hcontrol : c < 0x20
    · rw [if_pos hcontrol] at h
      cases h
    · rw [if_neg hcontrol] at h
      obtain ⟨⟨s', rest'⟩, hrest, heq⟩ := Option.map_eq_some_iff.mp h
      obtain ⟨rfl, rfl⟩ := Prod.mk.inj heq
      exact .plain ⟨hquote, hbackslash, hcontrol⟩ rfl hrest

/-- Four hex digits are none of the marks behind a string. -/
theorem hexDigit_of_hex4 {x y z w d : CodeUnit} (h : hex4 x y z w = some d) :
    ∀ u ∈ [x, y, z, w], (hexDigit u).isSome = true := by
  simp only [hex4, Option.bind_eq_bind, Option.bind_eq_some_iff] at h
  obtain ⟨a, ha, b, hb, c, hc, d', hd, -⟩ := h
  simp [ha, hb, hc, hd]

/-- The escape of a unit takes four digits of the string itself, not the marks behind it. -/
theorem exists_of_hex4 {x y z w d : CodeUnit} {more : List CodeUnit}
    (hu : t ++ quote :: more = 0x75 :: x :: y :: z :: w :: rest) (h : hex4 x y z w = some d) :
    ∃ t', t = 0x75 :: x :: y :: z :: w :: t' ∧ rest = t' ++ quote :: more := by
  have hdigits := hexDigit_of_hex4 h
  have hquote : ∀ u ∈ [x, y, z, w], u ≠ quote := by
    rintro u hmem rfl
    exact absurd (hdigits quote hmem) (by decide)
  simp only [List.forall_mem_cons] at hquote
  obtain ⟨hx, hy, hz, hw, -⟩ := hquote
  obtain _ | ⟨u, _ | ⟨x', _ | ⟨y', _ | ⟨z', _ | ⟨w', t'⟩⟩⟩⟩⟩ := t
  · exact absurd (List.cons.inj hu).1 (by decide)
  · simp only [List.cons_append, List.nil_append, List.cons.injEq] at hu
    exact absurd hu.2.1.symm hx
  · simp only [List.cons_append, List.nil_append, List.cons.injEq] at hu
    exact absurd hu.2.2.1.symm hy
  · simp only [List.cons_append, List.nil_append, List.cons.injEq] at hu
    exact absurd hu.2.2.2.1.symm hz
  · simp only [List.cons_append, List.nil_append, List.cons.injEq] at hu
    exact absurd hu.2.2.2.2.1.symm hw
  · simp only [List.cons_append, List.cons.injEq] at hu
    obtain ⟨rfl, rfl, rfl, rfl, rfl, rfl⟩ := hu
    exact ⟨t', rfl, rfl⟩

/-- A string that is written as it is, in front of another member: what is read of it is shorter
unless all of it is plain, or it ends in a backslash and what is read ends in the comma. -/
theorem length_parseString {more : List CodeUnit} (n : ℕ) (hn : t.length ≤ n)
    (h : parseString (t ++ quote :: 0x2C :: quote :: more) = some (s, rest)) :
    (s.length ≤ t.length ∧ ((∃ c ∈ t, ¬ Plain c) → s.length < t.length)) ∨
      (s.getLast? = some 0x2C ∧ t.getLast? = some backslash) := by
  induction n generalizing t s with
  | zero =>
      obtain rfl := List.length_eq_zero_iff.mp (Nat.le_zero.mp hn)
      rw [List.nil_append, parseString_quote] at h
      obtain ⟨rfl, -⟩ := Prod.mk.inj (Option.some.inj h)
      simp
  | succ n ih =>
      cases t with
      | nil =>
          rw [List.nil_append, parseString_quote] at h
          obtain ⟨rfl, -⟩ := Prod.mk.inj (Option.some.inj h)
          simp
      | cons c t =>
          rw [List.length_cons] at hn
          cases stringStart h with
          | close hc hs hrest =>
              subst hs
              simp
          | @escape e d t' s' hc ht he hs hrest =>
              subst hs
              cases t with
              | nil =>
                  -- the backslash is the last unit: the quote behind it is read as text
                  obtain ⟨rfl, rfl⟩ := List.cons.inj ht
                  have hcomma := (readsInside_plain (c := 0x2C) (by decide)).parseString more
                  rw [List.singleton_append] at hcomma
                  rw [hcomma] at hrest
                  obtain ⟨rfl, -⟩ := Prod.mk.inj (Option.some.inj hrest)
                  simp [hc]
              | cons e' t =>
                  obtain ⟨rfl, rfl⟩ := List.cons.inj ht
                  rw [List.length_cons] at hn
                  obtain ⟨hle, -⟩ | ⟨hlast, hback⟩ := ih (by omega) hrest
                  · left
                    simp only [List.length_cons]
                    omega
                  · right
                    simp [List.getLast?_cons, hlast, hback]
          | @hex x y z w d t' s' hc ht hx hs hrest =>
              subst hs
              obtain ⟨t'', rfl, rfl⟩ := exists_of_hex4 ht hx
              simp only [List.length_cons] at hn
              obtain ⟨hle, -⟩ | ⟨hlast, hback⟩ := ih (by omega) hrest
              · left
                simp only [List.length_cons]
                omega
              · right
                simp [List.getLast?_cons, hlast, hback]
          | @plain s' hc hs hrest =>
              subst hs
              obtain ⟨hle, hlt⟩ | ⟨hlast, hback⟩ := ih (by omega) hrest
              · left
                simp only [List.length_cons, List.exists_mem_cons_iff, hc, not_true, false_or]
                exact ⟨by omega, fun hmore => Nat.succ_lt_succ (hlt hmore)⟩
              · right
                simp [List.getLast?_cons, hlast, hback]

/-- A string that is written as it is and reads as itself is plain. -/
theorem plain_of_parseString {more : List CodeUnit}
    (h : parseString (t ++ quote :: 0x2C :: quote :: more) = some (t, rest)) : ∀ c ∈ t, Plain c := by
  by_contra hplain
  push Not at hplain
  obtain ⟨-, hlt⟩ | ⟨hcomma, hbackslash⟩ := length_parseString t.length (Nat.le_refl _) h
  · exact absurd (hlt hplain) (Nat.lt_irrefl _)
  · rw [hcomma] at hbackslash
    exact absurd hbackslash (by decide)

end Strings

section Values

theorem skipSpace_cons (hc : isSpace c = false) (rest : List CodeUnit) :
    skipSpace (c :: rest) = c :: rest := by
  rw [skipSpace, List.dropWhile_cons_of_neg]
  simp [hc]

/-- A string between its quotes. -/
def quoted (t : List CodeUnit) : List CodeUnit := quote :: (t ++ [quote])

theorem parseValue_quote (fuel : ℕ) (rest : List CodeUnit) :
    parseValue (fuel + 1) (quote :: rest) =
      (parseString rest).map fun e => (.str e.1, e.2) := by
  rw [parseValue, skipSpace_cons (by decide)]
  exact if_pos rfl

theorem reads_quoted (h : ReadsInside t s) : Reads (quoted t) (.str s) := by
  intro fuel rest
  rw [quoted, List.cons_append, List.append_assoc, List.singleton_append, parseValue_quote,
    h.parseString]
  rfl

theorem broken_quoted (h : BrokenInside t) : Broken (quoted t) := by
  intro fuel rest
  cases fuel with
  | zero => rfl
  | succ fuel =>
      rw [quoted, List.cons_append, List.append_assoc, parseValue_quote, h]
      rfl

theorem parseWord_append (word : String) (v : Json) (rest : List CodeUnit) :
    parseWord word v (units word ++ rest) = some (v, rest) := by
  rw [parseWord, if_pos (List.isPrefixOf_iff_prefix.mpr (List.prefix_append _ _)),
    List.drop_left]

theorem reads_bool (b : Bool) : Reads (units (toString b)) (.bool b) := by
  intro fuel rest
  cases b with
  | true =>
      have hword := parseWord_append "true" (.bool true) rest
      rw [parseValue]
      exact hword
  | false =>
      have hword := parseWord_append "false" (.bool false) rest
      rw [parseValue]
      exact hword

end Values

section Objects

/-- A key and the text of its value. -/
def memberText (m : List CodeUnit × List CodeUnit) : List CodeUnit := quoted m.1 ++ 0x3A :: m.2

/-- Members with commas between them. -/
def membersText : List (List CodeUnit × List CodeUnit) → List CodeUnit
  | [] => []
  | [m] => memberText m
  | m :: ms => memberText m ++ 0x2C :: membersText ms

def objectText (ms : List (List CodeUnit × List CodeUnit)) : List CodeUnit :=
  0x7B :: (membersText ms ++ [0x7D])

/-- A member that reads: its key stands for itself, and its value reads. -/
def ReadsMember (m : List CodeUnit × List CodeUnit) (n : List CodeUnit × Json) : Prop :=
  n.1 = m.1 ∧ (∀ c ∈ m.1, Plain c) ∧ Reads m.2 n.2

/-- A member that does not read: its key stands for itself, and its value is broken. -/
def BrokenMember (m : List CodeUnit × List CodeUnit) : Prop := (∀ c ∈ m.1, Plain c) ∧ Broken m.2

/-- What comes after a member. -/
def afterMember (fuel : ℕ) (key : List CodeUnit) (v : Json) (rest : List CodeUnit) :
    Option (List (List CodeUnit × Json) × List CodeUnit) :=
  match skipSpace rest with
  | 0x2C :: rest => (parseMembers fuel rest).map fun e => ((key, v) :: e.1, e.2)
  | 0x7D :: rest => some ([(key, v)], rest)
  | _ => none

theorem parseMembers_quoted (hkey : ReadsInside t s) (fuel : ℕ) (rest : List CodeUnit) :
    parseMembers (fuel + 1) (quoted t ++ 0x3A :: rest) =
      (parseValue fuel rest).bind fun e => afterMember fuel s e.1 e.2 := by
  have hread := hkey.parseString (0x3A :: rest)
  have hcolon : skipSpace (0x3A :: rest) = 0x3A :: rest := skipSpace_cons (by decide) rest
  rw [quoted, List.cons_append, List.append_assoc, List.singleton_append, parseMembers,
    skipSpace_cons (by decide)]
  show ((parseString (t ++ quote :: 0x3A :: rest)).bind _) = _
  rw [hread, Option.bind_some]
  dsimp only
  rw [hcolon]
  rfl

theorem parseMembers_member {key : List CodeUnit} (hkey : ∀ c ∈ key, Plain c) (fuel : ℕ)
    (rest : List CodeUnit) :
    parseMembers (fuel + 1) (quoted key ++ 0x3A :: rest) =
      (parseValue fuel rest).bind fun e => afterMember fuel key e.1 e.2 :=
  parseMembers_quoted (readsInside_self hkey) fuel rest

theorem afterMember_comma (fuel : ℕ) (key : List CodeUnit) (v : Json) (rest : List CodeUnit) :
    afterMember fuel key v (0x2C :: rest) =
      (parseMembers fuel rest).map fun e => ((key, v) :: e.1, e.2) := by
  rw [afterMember, skipSpace_cons (by decide)]
  rfl

theorem afterMember_brace (fuel : ℕ) (key : List CodeUnit) (v : Json) (rest : List CodeUnit) :
    afterMember fuel key v (0x7D :: rest) = some ([(key, v)], rest) := by
  rw [afterMember, skipSpace_cons (by decide)]
  rfl

variable {ms ms' : List (List CodeUnit × List CodeUnit)} {ns : List (List CodeUnit × Json)}
  {m : List CodeUnit × List CodeUnit}

theorem membersText_cons (m : List CodeUnit × List CodeUnit) (hms : ms ≠ []) :
    membersText (m :: ms) = memberText m ++ 0x2C :: membersText ms := by
  cases ms with
  | nil => exact absurd rfl hms
  | cons m' ms => rfl

/-- Members that read, one unit of fuel for each and one more. -/
theorem parseMembers_membersText (h : List.Forall₂ ReadsMember ms ns) (hms : ms ≠ [])
    (hfuel : ms.length < fuel) (rest : List CodeUnit) :
    parseMembers fuel (membersText ms ++ 0x7D :: rest) = some (ns, rest) := by
  induction h generalizing fuel with
  | nil => exact absurd rfl hms
  | @cons m n ms ns hm hrest ih =>
      obtain ⟨hkey, hplain, hreads⟩ := hm
      obtain ⟨fuel, rfl⟩ : ∃ k, fuel = k + 1 + 1 := ⟨fuel - 2, by simp at hfuel; omega⟩
      cases hrest with
      | nil =>
          show parseMembers _ (memberText m ++ _) = _
          rw [memberText, List.append_assoc, List.cons_append, parseMembers_member hplain, hreads,
            Option.bind_some, afterMember_brace, ← hkey]
      | @cons m' n' ms ns hm' hrest =>
          have hlater : parseMembers (fuel + 1) (membersText (m' :: ms) ++ 0x7D :: rest) =
              some (n' :: ns, rest) := ih (by simp) (by simpa using hfuel)
          rw [membersText_cons m (by simp), memberText, List.append_assoc, List.append_assoc,
            List.cons_append, List.cons_append, parseMembers_member hplain, hreads,
            Option.bind_some, afterMember_comma, hlater, ← hkey]
          rfl

/-- One broken member behind others that read. -/
theorem parseMembers_broken (h : List.Forall₂ ReadsMember ms ns) (hm : BrokenMember m)
    (fuel : ℕ) (rest : List CodeUnit) :
    parseMembers fuel (membersText (ms ++ m :: ms') ++ rest) = none := by
  induction h generalizing fuel with
  | nil =>
      cases fuel with
      | zero => rfl
      | succ fuel =>
          have hbroken : ∀ rest, parseValue fuel (m.2 ++ rest) = none := hm.2 fuel
          cases ms' with
          | nil =>
              show parseMembers _ (memberText m ++ rest) = none
              rw [memberText, List.append_assoc, List.cons_append, parseMembers_member hm.1,
                hbroken]
              rfl
          | cons m' ms' =>
              show parseMembers _ (membersText (m :: m' :: ms') ++ rest) = none
              rw [membersText_cons m (by simp), memberText, List.append_assoc, List.append_assoc,
                List.cons_append, List.cons_append, parseMembers_member hm.1, hbroken]
              rfl
  | @cons m₀ n ms ns hm₀ hrest ih =>
      cases fuel with
      | zero => rfl
      | succ fuel =>
          obtain ⟨-, hplain, hreads⟩ := hm₀
          rw [List.cons_append, membersText_cons m₀ (by simp), memberText, List.append_assoc,
            List.append_assoc, List.cons_append, List.cons_append, parseMembers_member hplain]
          cases fuel with
          | zero => rfl
          | succ fuel =>
              rw [hreads, Option.bind_some, afterMember_comma, ih]
              rfl

/-- A string that is written as it is behind members that read, and reads as itself, is plain. -/
theorem parseMembers_raw {key : List CodeUnit} {ns' : List (List CodeUnit × Json)}
    {rest' : List CodeUnit} (h : List.Forall₂ ReadsMember ms ns) (hkey : ∀ c ∈ key, Plain c)
    (hp : parseMembers fuel (membersText (ms ++ (key, quoted t) :: m :: ms') ++ rest) =
      some (ns', rest')) (hget : ns'[ms.length]? = some (key, .str t)) : ∀ c ∈ t, Plain c := by
  induction h generalizing fuel ns' rest' with
  | nil =>
      rw [List.nil_append, membersText_cons (key, quoted t) (by simp), memberText] at hp
      obtain ⟨more, hmore⟩ : ∃ more, membersText (m :: ms') ++ rest = quote :: more := by
        cases ms' with
        | nil => exact ⟨_, rfl⟩
        | cons m' ms' => exact ⟨_, rfl⟩
      obtain _ | _ | fuel := fuel
      · cases hp
      · rw [List.append_assoc, List.append_assoc, List.cons_append, parseMembers_member hkey] at hp
        cases hp
      · rw [List.append_assoc, List.append_assoc, List.cons_append, parseMembers_member hkey] at hp
        obtain ⟨⟨v, after⟩, hv, hafter⟩ := Option.bind_eq_some_iff.mp hp
        have hhead : ns'[0]? = some (key, v) := by
          rw [afterMember] at hafter
          split at hafter
          · obtain ⟨e, -, he⟩ := Option.map_eq_some_iff.mp hafter
            rw [← (Prod.mk.inj he).1]
            rfl
          · rw [← (Prod.mk.inj (Option.some.inj hafter)).1]
            rfl
          · cases hafter
        obtain rfl : v = .str t := (Prod.mk.inj (Option.some.inj (hhead.symm.trans hget))).2
        have hstring : quoted t ++ (0x2C :: membersText (m :: ms') ++ rest) =
            quote :: (t ++ quote :: 0x2C :: quote :: more) := by
          simp [quoted, ← hmore]
        rw [hstring, parseValue_quote] at hv
        obtain ⟨⟨s, after'⟩, hs, heq⟩ := Option.map_eq_some_iff.mp hv
        obtain rfl : s = t := Json.str.inj (Prod.mk.inj heq).1
        exact plain_of_parseString hs
  | @cons m₀ n ms ns hm₀ hrest ih =>
      obtain ⟨-, hplain, hreads⟩ := hm₀
      rw [List.cons_append, membersText_cons m₀ (by simp), memberText, List.append_assoc,
        List.append_assoc, List.cons_append, List.cons_append] at hp
      obtain _ | _ | fuel := fuel
      · cases hp
      · rw [parseMembers_member hplain] at hp
        cases hp
      · rw [parseMembers_member hplain, hreads, Option.bind_some, afterMember_comma] at hp
        obtain ⟨⟨ns'', rest''⟩, hlater, heq⟩ := Option.map_eq_some_iff.mp hp
        obtain ⟨rfl, -⟩ := Prod.mk.inj heq
        exact ih hlater hget

theorem length_le_membersText (ms : List (List CodeUnit × List CodeUnit)) :
    ms.length ≤ (membersText ms).length := by
  induction ms with
  | nil => exact Nat.le_refl 0
  | cons m ms ih =>
      have hm : 1 ≤ (memberText m).length := by
        rw [memberText, List.length_append, List.length_cons]
        omega
      cases ms with
      | nil => exact hm
      | cons m' ms =>
          rw [membersText_cons m (by simp)]
          simp only [List.length_append, List.length_cons] at ih ⊢
          omega

/-- An object that is not empty. -/
theorem parseValue_quoted_brace (fuel : ℕ) (t : List CodeUnit) :
    parseValue (fuel + 1) (0x7B :: quote :: t) =
      (parseMembers fuel (quote :: t)).map fun e => (.obj e.1, e.2) := by
  rw [parseValue, skipSpace_cons (by decide)]
  dsimp only
  rw [if_neg (by decide), if_pos rfl, skipSpace_cons (by decide)]
  rfl

theorem parseValue_brace (hms : ms ≠ []) (fuel : ℕ) (rest : List CodeUnit) :
    parseValue (fuel + 1) (0x7B :: (membersText ms ++ rest)) =
      (parseMembers fuel (membersText ms ++ rest)).map fun e => (.obj e.1, e.2) := by
  have hstart : ∃ units, membersText ms ++ rest = quote :: units := by
    cases ms with
    | nil => exact absurd rfl hms
    | cons m ms =>
        cases ms with
        | nil => exact ⟨_, rfl⟩
        | cons m' ms => exact ⟨_, rfl⟩
  obtain ⟨units, heq⟩ := hstart
  rw [heq, parseValue_quoted_brace]

/-- An object whose members read, with nothing but space behind it. -/
theorem parse_objectText_space (h : List.Forall₂ ReadsMember ms ns) (hms : ms ≠ [])
    (hrest : skipSpace rest = []) : parse (objectText ms ++ rest) = some (.obj ns) := by
  have hfuel : ms.length < (objectText ms ++ rest).length := by
    have hle := length_le_membersText ms
    rw [objectText, List.length_append, List.length_cons, List.length_append]
    omega
  have htext : objectText ms ++ rest = 0x7B :: (membersText ms ++ 0x7D :: rest) := by
    rw [objectText, List.cons_append, List.append_assoc, List.singleton_append]
  rw [htext] at hfuel ⊢
  rw [parse, parseValue_brace hms, parseMembers_membersText h hms hfuel]
  show (if (skipSpace rest).isEmpty then _ else _) = _
  rw [hrest]
  rfl

/-- An object whose members read. -/
theorem parse_objectText (h : List.Forall₂ ReadsMember ms ns) (hms : ms ≠ []) :
    parse (objectText ms) = some (.obj ns) := by
  have hspace : parse (objectText ms ++ []) = _ := parse_objectText_space h hms rfl
  rwa [List.append_nil] at hspace

/-- An object with a broken member. -/
theorem parse_objectText_broken (h : List.Forall₂ ReadsMember ms ns) (hm : BrokenMember m) :
    parse (objectText (ms ++ m :: ms')) = none := by
  rw [parse, objectText, parseValue_brace (by simp), parseMembers_broken h hm]
  rfl

/-- An object all of whose members read or are broken, and one is. -/
theorem parse_objectText_of_broken (h : ∀ m ∈ ms, (∃ n, ReadsMember m n) ∨ BrokenMember m)
    (hm : ∃ m ∈ ms, BrokenMember m) : parse (objectText ms) = none := by
  have hfirst : ∃ front m back ns, ms = front ++ m :: back ∧ List.Forall₂ ReadsMember front ns ∧
      BrokenMember m := by
    induction ms with
    | nil => simp at hm
    | cons m ms ih =>
        obtain ⟨n, hn⟩ | hbroken := h m List.mem_cons_self
        · by_cases hmore : ∃ m ∈ ms, BrokenMember m
          · obtain ⟨front, m', back, ns, rfl, hfront, hm'⟩ :=
              ih (fun e he => h e (List.mem_cons_of_mem m he)) hmore
            exact ⟨m :: front, m', back, n :: ns, rfl, .cons hn hfront, hm'⟩
          · obtain ⟨m', hmem, hm'⟩ := hm
            obtain rfl | hmem := List.mem_cons.mp hmem
            · exact ⟨[], m', ms, [], rfl, .nil, hm'⟩
            · exact absurd ⟨m', hmem, hm'⟩ hmore
        · exact ⟨[], m, ms, [], rfl, .nil, hbroken⟩
  obtain ⟨front, m, back, ns, rfl, hfront, hbroken⟩ := hfirst
  exact parse_objectText_broken hfront hbroken

/-- A string that an object has as it is, and that reads as itself, is plain. -/
theorem plain_of_parse_objectText {key : List CodeUnit} {ns' : List (List CodeUnit × Json)}
    (h : List.Forall₂ ReadsMember ms ns) (hkey : ∀ c ∈ key, Plain c)
    (hp : parse (objectText (ms ++ (key, quoted t) :: m :: ms')) = some (.obj ns'))
    (hget : ns'[ms.length]? = some (key, .str t)) : ∀ c ∈ t, Plain c := by
  rw [parse, objectText, parseValue_brace (by simp)] at hp
  split at hp
  · rename_i value rest hvalue
    obtain ⟨⟨ns'', rest'⟩, hmembers, heq⟩ := Option.map_eq_some_iff.mp hvalue
    obtain ⟨rfl, -⟩ := Prod.mk.inj heq
    split at hp
    · obtain rfl : ns'' = ns' := Json.obj.inj (Option.some.inj hp)
      exact parseMembers_raw h hkey hmembers hget
    · cases hp
  · cases hp

/-- A unit of an object's text is a mark, or it is in a key or in a value. -/
theorem notMem_objectText (hc : c ∉ ([quote, 0x3A, 0x2C, 0x7B, 0x7D] : List CodeUnit))
    (h : ∀ m ∈ ms, c ∉ m.1 ∧ c ∉ m.2) : c ∉ objectText ms := by
  simp only [List.mem_cons, List.not_mem_nil, or_false, not_or] at hc
  have hmember : ∀ m ∈ ms, c ∉ memberText m := by
    intro m hm
    obtain ⟨hkey, hvalue⟩ := h m hm
    simp [memberText, quoted, hkey, hvalue, hc]
  have hmembers : c ∉ membersText ms := by
    clear h
    induction ms with
    | nil => exact List.not_mem_nil
    | cons m ms ih =>
        have hm := hmember m List.mem_cons_self
        cases ms with
        | nil => exact hm
        | cons m' ms =>
            have hrest := ih fun e he => hmember e (List.mem_cons_of_mem m he)
            rw [membersText_cons m (by simp)]
            simp [hm, hrest, hc]
  simp [objectText, hmembers, hc]

/-- An object has no white space around it. -/
theorem trim_objectText (ms : List (List CodeUnit × List CodeUnit)) :
    trim (objectText ms) = objectText ms := by
  have hfront : ∀ units, (0x7B :: units : List CodeUnit).dropWhile isWhite = 0x7B :: units := by
    intro units
    exact List.dropWhile_cons_of_neg (by decide)
  have hback : ∀ units, (0x7D :: units : List CodeUnit).dropWhile isWhite = 0x7D :: units := by
    intro units
    exact List.dropWhile_cons_of_neg (by decide)
  rw [trim, objectText, hfront, ← List.cons_append, List.reverse_append, List.reverse_singleton,
    List.singleton_append, hback, List.reverse_cons, List.reverse_reverse]

end Objects

end Json
