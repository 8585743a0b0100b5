import ServeInfer.Lib.Regex

/-!
# Searching a flat JSON text for a field

Extractors that search a whole text for the first match of a quoted key, a colon and
a value. In a text whose strings have quotes only behind backslashes, and whose
strings are followed by commas, a key can only be found where it is a key. The
alphabet is left open: a text may be of bytes or of characters.
-/

/-- The characters of an alphabet that a JSON text is put together with. -/
structure Marks (α : Type*) where
  quote : α
  backslash : α
  comma : α
  colon : α
  isSpace : α → Bool
  isBreak : α → Bool
  distinct : [quote, backslash, comma, colon].Nodup
  unspaced : ∀ a ∈ [quote, backslash, comma, colon], isSpace a = false

namespace Marks

variable {α : Type*} (M : Marks α)

/-- The inside of a string: what is neither a quote nor a backslash stands for itself, and a
backslash takes the next character with it, which is no line break. -/
inductive Inside : List α → Prop
  | nil : Inside []
  | plain {a : α} {x : List α} (hquote : a ≠ M.quote) (hbackslash : a ≠ M.backslash)
      (h : Inside x) : Inside (a :: x)
  | escaped {a : α} {x : List α} (hbreak : M.isBreak a = false) (h : Inside x) :
      Inside (M.backslash :: a :: x)

/-- A key that nothing but a key looks like. -/
def IsKey (key : List α) : Prop :=
  key ≠ [] ∧ ∀ a ∈ key, a ∉ [M.quote, M.backslash, M.comma, M.colon]

instance [DecidableEq α] (key : List α) : Decidable (M.IsKey key) :=
  inferInstanceAs (Decidable (_ ∧ _))

/-- A text between quotes. -/
def quoted (x : List α) : List α := M.quote :: (x ++ [M.quote])

/-- A key, a colon and a value. -/
def field (key value : List α) : List α := M.quote :: (key ++ M.quote :: M.colon :: value)

/-- `\s*`. -/
def spaces : Regex α := .star (.one M.isSpace)

variable {M} {key name x y rest : List α} {a : α}

theorem quote_ne_backslash : M.quote ≠ M.backslash := by
  have h := M.distinct
  simp only [List.nodup_cons, List.mem_cons, not_or] at h
  exact h.1.1

theorem comma_ne_quote : M.comma ≠ M.quote := by
  have h := M.distinct
  simp only [List.nodup_cons, List.mem_cons, not_or] at h
  exact Ne.symm h.1.2.1

theorem colon_ne_quote : M.colon ≠ M.quote := by
  have h := M.distinct
  simp only [List.nodup_cons, List.mem_cons, not_or] at h
  exact Ne.symm h.1.2.2.1

theorem comma_ne_colon : M.comma ≠ M.colon := by
  have h := M.distinct
  simp only [List.nodup_cons, List.mem_cons, not_or] at h
  exact h.2.2.1.1

theorem Inside.append (hx : M.Inside x) (hy : M.Inside y) : M.Inside (x ++ y) := by
  induction hx with
  | nil => exact hy
  | plain hquote hbackslash _ ih => exact .plain hquote hbackslash ih
  | escaped hbreak _ ih => exact .escaped hbreak ih

theorem inside_of_plain (hx : ∀ a ∈ x, a ≠ M.quote ∧ a ≠ M.backslash) : M.Inside x := by
  induction x with
  | nil => exact .nil
  | cons a x ih =>
      obtain ⟨hquote, hbackslash⟩ := hx a List.mem_cons_self
      exact .plain hquote hbackslash (ih fun b hb => hx b (List.mem_cons_of_mem a hb))

theorem inside_flatMap {β : Type*} {f : β → List α} {l : List β} (h : ∀ b ∈ l, M.Inside (f b)) :
    M.Inside (l.flatMap f) := by
  induction l with
  | nil => exact .nil
  | cons b l ih =>
      rw [List.flatMap_cons]
      apply (h b List.mem_cons_self).append
      exact ih fun c hc => h c (List.mem_cons_of_mem b hc)

theorem IsKey.plain (h : M.IsKey key) : ∀ a ∈ key, a ≠ M.quote ∧ a ≠ M.backslash := by
  intro a ha
  have hnot := h.2 a ha
  simp only [List.mem_cons, not_or] at hnot
  exact ⟨hnot.1, hnot.2.1⟩

theorem IsKey.inside (h : M.IsKey key) : M.Inside key := inside_of_plain h.plain

/-- A string has one end. -/
theorem Inside.unique (hx : M.Inside x) (hname : M.Inside name)
    (h : x ++ M.quote :: rest = name ++ M.quote :: y) : x = name ∧ rest = y := by
  induction hx generalizing name with
  | nil =>
      cases hname with
      | nil => exact ⟨rfl, (List.cons.inj h).2⟩
      | plain hquote _ _ => exact absurd (List.cons.inj h).1.symm hquote
      | escaped _ _ => exact absurd (List.cons.inj h).1 quote_ne_backslash
  | plain hquote hbackslash _ ih =>
      cases hname with
      | nil => exact absurd (List.cons.inj h).1 hquote
      | plain _ _ hname =>
          rw [List.cons_append, List.cons_append, List.cons.injEq] at h
          obtain ⟨rfl, htail⟩ := h
          obtain ⟨rfl, heq⟩ := ih hname htail
          exact ⟨rfl, heq⟩
      | escaped _ _ => exact absurd (List.cons.inj h).1 hbackslash
  | escaped _ _ ih =>
      cases hname with
      | nil => exact absurd (List.cons.inj h).1.symm quote_ne_backslash
      | plain _ hbackslash _ => exact absurd (List.cons.inj h).1.symm hbackslash
      | escaped _ hname =>
          simp only [List.cons_append, List.cons.injEq] at h
          obtain ⟨-, rfl, htail⟩ := h
          obtain ⟨rfl, heq⟩ := ih hname htail
          exact ⟨rfl, heq⟩

theorem runs_spaces (ha : M.isSpace a = false) (y : List α) :
    M.spaces.runs (a :: y) = [([], a :: y)] := by
  apply Regex.runs_star_of_stop
  simp [Regex.runs, ha]

theorem quoted_append (key y : List α) :
    M.quote :: (key ++ M.quote :: y) = M.quote :: key ++ [M.quote] ++ y := by
  simp

section Searching

variable [DecidableEq α] (M)

/-- `"key"\s*:\s*`. -/
def keyRegex (key : List α) : Regex α :=
  .seq (.literal (M.quote :: key ++ [M.quote]))
    (.seq M.spaces (.seq (.one fun a => a = M.colon) M.spaces))

/-- `\\.|[^"\\]`. -/
def stringUnit : Regex α :=
  .alt (.seq (.one fun a => a = M.backslash) (.one fun a => !M.isBreak a))
    (.one fun a => a ≠ M.quote && a ≠ M.backslash)

/-- A key, and a string as the group. -/
def stringPattern (key : List α) : Regex.Pattern α where
  before := .seq (M.keyRegex key) (.one fun a => a = M.quote)
  group := .star M.stringUnit
  after := .one fun a => a = M.quote

/-- A key, and a value as the group. -/
def valuePattern (key : List α) (value : Regex α) : Regex.Pattern α where
  before := M.keyRegex key
  group := value

variable {M}

/-- A key needs its two quotes. -/
theorem keyRegex_of_not (h : ¬ M.quote :: key ++ [M.quote] <+: x) :
    (M.keyRegex key).runs x = [] := by
  simp only [keyRegex, Regex.runs, Regex.runs_literal_of_not h, List.flatMap_nil]

theorem keyRegex_other (ha : a ≠ M.quote) (y : List α) : (M.keyRegex key).runs (a :: y) = [] := by
  apply keyRegex_of_not
  intro hp
  exact ha (List.cons_prefix_cons.mp hp).1.symm

/-- A key needs its colon. -/
theorem keyRegex_no_colon (hspace : M.isSpace a = false) (hcolon : a ≠ M.colon) (y : List α) :
    (M.keyRegex key).runs (M.quote :: (key ++ M.quote :: a :: y)) = [] := by
  rw [quoted_append]
  simp only [keyRegex, Regex.runs, Regex.runs_literal_append, List.flatMap_cons, List.flatMap_nil,
    runs_spaces hspace, decide_eq_false hcolon, Bool.false_eq_true, if_false, List.map_nil,
    List.append_nil]

theorem keyRegex_value (hspace : M.isSpace a = false) (y : List α) :
    (M.keyRegex key).runs (M.quote :: (key ++ M.quote :: M.colon :: a :: y)) =
      [(M.quote :: key ++ [M.quote] ++ [M.colon], a :: y)] := by
  have hcolon : M.isSpace M.colon = false := M.unspaced _ (by simp)
  rw [quoted_append]
  simp only [keyRegex, Regex.runs, Regex.runs_literal_append, List.flatMap_cons, List.flatMap_nil,
    runs_spaces hcolon, runs_spaces hspace, decide_true, if_true, List.map_cons, List.map_nil,
    List.append_nil, List.nil_append]

/-- The closing quote of a string is followed by a comma, which no key begins with. -/
theorem keyRegex_comma (hkey : M.IsKey key) (ha : a = M.comma ∨ a = M.colon) (y : List α) :
    (M.keyRegex key).runs (M.quote :: a :: y) = [] := by
  apply keyRegex_of_not
  obtain ⟨hne, hplain⟩ := hkey
  cases key with
  | nil => exact absurd rfl hne
  | cons k key =>
      intro hp
      have hk := (List.cons_prefix_cons.mp (List.cons_prefix_cons.mp hp).2).1
      have hnot := hplain k List.mem_cons_self
      simp only [List.mem_cons, List.not_mem_nil, not_or] at hnot
      rcases ha with rfl | rfl
      · exact hnot.2.2.1 hk
      · exact hnot.2.2.2.1 hk

/-- No string is read as a key, wherever its text begins. -/
theorem keyRegex_string (hkey : M.IsKey key) (hx : M.Inside x) (y : List α) :
    (M.keyRegex key).runs (M.quote :: (x ++ M.quote :: M.comma :: y)) = [] := by
  by_cases hp : M.quote :: key ++ [M.quote] <+: M.quote :: (x ++ M.quote :: M.comma :: y)
  · obtain ⟨rest, hrest⟩ := hp
    have heq : key ++ M.quote :: rest = x ++ M.quote :: M.comma :: y := by simpa using hrest
    obtain ⟨-, rfl⟩ := hkey.inside.unique hx heq
    rw [← hrest, ← quoted_append]
    exact keyRegex_no_colon (M.unspaced _ (by simp)) comma_ne_colon y
  · exact keyRegex_of_not hp

/-- Another key is not this one. -/
theorem keyRegex_name (hkey : M.IsKey key) (hname : M.IsKey name) (hne : name ≠ key) (y : List α) :
    (M.keyRegex key).runs (M.quote :: (name ++ M.quote :: y)) = [] := by
  apply keyRegex_of_not
  rintro ⟨rest, hrest⟩
  have heq : key ++ M.quote :: rest = name ++ M.quote :: y := by simpa using hrest
  exact hne (hkey.inside.unique hname.inside heq).1.symm

section Search

variable {p : Regex.Pattern α}
  (hp : ∀ s, (M.keyRegex key).runs s = [] → p.captures s = []) (hkey : M.IsKey key)

include hp

theorem skips_plain (hx : ∀ a ∈ x, a ≠ M.quote) (y : List α) : p.Skips x y := by
  induction x with
  | nil => exact Regex.Pattern.skips_nil
  | cons a x ih =>
      refine (ih fun b hb => hx b (List.mem_cons_of_mem a hb)).cons (hp _ ?_)
      exact keyRegex_other (hx a List.mem_cons_self) _

/-- A character that is no quote begins no key. -/
theorem search_other (ha : a ≠ M.quote) (y : List α) : p.search (a :: y) = p.search y :=
  Regex.Pattern.search_skip (hp _ (keyRegex_other ha y))

theorem search_plain (hx : ∀ a ∈ x, a ≠ M.quote) (y : List α) :
    p.search (x ++ y) = p.search y :=
  (skips_plain hp hx y).search

include hkey

/-- No key is found in a string, from anywhere inside it. -/
theorem skips_inside (hx : M.Inside x) (y : List α) :
    p.Skips (x ++ [M.quote]) (M.comma :: y) := by
  induction hx with
  | nil => exact Regex.Pattern.skips_nil.cons (hp _ (keyRegex_comma hkey (.inl rfl) y))
  | plain hquote _ _ ih => exact ih.cons (hp _ (keyRegex_other hquote _))
  | @escaped a x _ hx ih =>
      have hrest : p.captures (a :: (x ++ [M.quote] ++ M.comma :: y)) = [] := by
        by_cases hquote : a = M.quote
        · subst hquote
          rw [List.append_assoc]
          exact hp _ (keyRegex_string hkey hx y)
        · exact hp _ (keyRegex_other hquote _)
      exact (ih.cons hrest).cons (hp _ (keyRegex_other quote_ne_backslash.symm _))

/-- A string is skipped whole. -/
theorem skips_string (hx : M.Inside x) (y : List α) :
    p.Skips (M.quoted x) (M.comma :: y) := by
  refine (skips_inside hp hkey hx y).cons (hp _ ?_)
  rw [List.append_assoc]
  exact keyRegex_string hkey hx y

theorem search_string (hx : M.Inside x) (y : List α) :
    p.search (M.quote :: (x ++ M.quote :: M.comma :: y)) = p.search y := by
  have htext : M.quote :: (x ++ M.quote :: M.comma :: y) = M.quoted x ++ M.comma :: y := by
    simp [quoted]
  rw [htext, (skips_string hp hkey hx y).search, search_other hp comma_ne_quote]

/-- Between a key's quotes nothing is found, and neither in what leads up to its value. -/
theorem skips_behind_name (hname : M.IsKey name) (y : List α) :
    p.Skips (name ++ [M.quote, M.colon]) y := by
  refine (skips_plain hp (fun a ha => (hname.plain a ha).1) _).append ?_
  refine (skips_plain hp (by simpa using colon_ne_quote) y).cons (hp _ ?_)
  exact keyRegex_comma hkey (.inr rfl) y

/-- A field under another key is gone through to its value. -/
theorem skips_name (hname : M.IsKey name) (hne : name ≠ key) (y : List α) :
    p.Skips (M.field name []) y := by
  refine (skips_behind_name hp hkey hname y).cons (hp _ ?_)
  rw [List.append_assoc]
  exact keyRegex_name hkey hname hne _

theorem search_name (hname : M.IsKey name) (hne : name ≠ key) (y : List α) :
    p.search (M.quote :: (name ++ M.quote :: M.colon :: y)) = p.search y := by
  have htext : M.quote :: (name ++ M.quote :: M.colon :: y) = M.field name [] ++ y := by
    simp [field]
  rw [htext, (skips_name hp hkey hname hne y).search]

/-- A field under another key whose value is a string is skipped whole. -/
theorem skips_field_quoted (hname : M.IsKey name) (hne : name ≠ key) (hx : M.Inside x)
    (y : List α) : p.Skips (M.field name (M.quoted x) ++ [M.comma]) y := by
  have htext : M.field name (M.quoted x) ++ [M.comma] =
      M.field name [] ++ (M.quoted x ++ [M.comma]) := by
    simp [field]
  rw [htext]
  refine (skips_name hp hkey hname hne _).append ?_
  exact (skips_string hp hkey hx y).append (skips_plain hp (by simpa using comma_ne_quote) y)

theorem search_field_quoted (hname : M.IsKey name) (hne : name ≠ key) (hx : M.Inside x)
    (y : List α) : p.search (M.field name (M.quoted x) ++ M.comma :: y) = p.search y := by
  have hskips := (skips_field_quoted hp hkey hname hne hx y).search
  rwa [List.append_assoc, List.singleton_append] at hskips

/-- And so is one whose value has no quotes. -/
theorem search_field_plain (hname : M.IsKey name) (hne : name ≠ key)
    (hx : ∀ a ∈ x, a ≠ M.quote) (y : List α) :
    p.search (M.field name x ++ M.comma :: y) = p.search y := by
  have htext : M.field name x ++ M.comma :: y =
      M.quote :: (name ++ M.quote :: M.colon :: (x ++ M.comma :: y)) := by
    simp [field]
  rw [htext, search_name hp hkey hname hne, search_plain hp hx, search_other hp comma_ne_quote]

end Search

theorem captures_stringPattern (s : List α) (h : (M.keyRegex key).runs s = []) :
    (M.stringPattern key).captures s = [] := by
  apply Regex.Pattern.captures_of_before
  simp only [stringPattern, Regex.runs, h, List.flatMap_nil]

theorem captures_valuePattern {value : Regex α} (s : List α) (h : (M.keyRegex key).runs s = []) :
    (M.valuePattern key value).captures s = [] :=
  Regex.Pattern.captures_of_before h

/-- The inside of a string is matched up to its closing quote. -/
theorem greedy_inside (hx : M.Inside x) (y : List α) :
    M.stringUnit.Greedy (x ++ M.quote :: y) x (M.quote :: y) := by
  induction hx with
  | nil =>
      refine .stop ?_
      simp [stringUnit, Regex.runs, decide_eq_false quote_ne_backslash]
  | @plain a x hquote hbackslash _ ih =>
      apply Regex.Greedy.more (m := [a]) _ (Nat.lt_succ_self _) ih
      simp [stringUnit, Regex.runs, hquote, hbackslash]
  | @escaped a x hbreak _ ih =>
      apply Regex.Greedy.more (m := [M.backslash, a]) _ _ ih
      · simp [stringUnit, Regex.runs, hbreak]
      · simp only [List.cons_append, List.length_cons]
        omega

/-- Where the key is, its string is what is found. -/
theorem search_stringPattern (hx : M.Inside x) (y : List α) :
    (M.stringPattern key).search
      (M.quote :: (key ++ M.quote :: M.colon :: M.quote :: (x ++ M.quote :: y))) = some x := by
  have hclosing : ∀ m s : List α, M.stringUnit.runs s ≠ [] →
      ((Regex.one fun a => a = M.quote).runs s).map (fun _ => m) = [] := by
    intro m s hs
    cases s with
    | nil => rfl
    | cons a s =>
        by_cases ha : a = M.quote
        · subst ha
          refine absurd ?_ hs
          simp [stringUnit, Regex.runs, decide_eq_false quote_ne_backslash]
        · simp [Regex.runs, ha]
  have hgroup := (greedy_inside hx y).flatMap_star
    (f := fun g => ((Regex.one fun a => a = M.quote).runs g.2).map fun _ => g.1) hclosing
  have hvalue : (M.keyRegex key).runs
      (M.quote :: (key ++ M.quote :: M.colon :: M.quote :: (x ++ M.quote :: y))) =
      [(M.quote :: key ++ [M.quote] ++ [M.colon], M.quote :: (x ++ M.quote :: y))] :=
    keyRegex_value (M.unspaced M.quote (by simp)) (x ++ M.quote :: y)
  have hcaptures : (M.stringPattern key).captures
      (M.quote :: (key ++ M.quote :: M.colon :: M.quote :: (x ++ M.quote :: y))) = [x] := by
    simp only [stringPattern, Regex.Pattern.captures]
    rw [Regex.runs, hvalue]
    simp only [List.flatMap_cons, List.flatMap_nil, List.append_nil, Regex.runs, decide_true,
      if_true, List.map_cons, List.map_nil]
    rw [Regex.runs] at hgroup
    simpa [Regex.runs] using hgroup
  exact Regex.Pattern.search_of_captures hcaptures

theorem inside_of_unit {w : List α × List α} (h : w ∈ M.stringUnit.runs x) : M.Inside w.1 := by
  rcases List.mem_append.mp h with hpair | hplain
  · obtain ⟨u, hu, hmem⟩ := List.mem_flatMap.mp hpair
    obtain ⟨v, hv, rfl⟩ := List.mem_map.mp hmem
    obtain ⟨b, t, -, hb, rfl⟩ := Regex.mem_runs_one.mp hu
    obtain ⟨c, t', -, hc, rfl⟩ := Regex.mem_runs_one.mp hv
    rw [of_decide_eq_true hb]
    exact .escaped (Bool.not_eq_true' _ ▸ hc) .nil
  · obtain ⟨b, t, -, hb, rfl⟩ := Regex.mem_runs_one.mp hplain
    simp only [ne_eq, Bool.and_eq_true, decide_eq_true_eq] at hb
    exact .plain hb.1 hb.2 .nil

/-- What the units of a string have matched is the inside of a string. -/
theorem inside_of_rounds {n : ℕ} {w : List α × List α}
    (h : w ∈ Regex.rounds M.stringUnit.runs n x) : M.Inside w.1 := by
  induction n generalizing x w with
  | zero =>
      obtain rfl := List.mem_singleton.mp h
      exact .nil
  | succ n ih =>
      rcases List.mem_append.mp h with hround | hnone
      · obtain ⟨u, hu, hmem⟩ := List.mem_flatMap.mp hround
        split at hmem
        · obtain ⟨v, hv, rfl⟩ := List.mem_map.mp hmem
          exact (inside_of_unit hu).append (ih hv)
        · cases hmem
      · obtain rfl := List.mem_singleton.mp hnone
        exact .nil

/-- A field is matched up to its closing quote or not at all. -/
theorem captures_cut (hx : M.Inside x) {u : List α}
    (hu : u <+: M.field key (M.quoted x) ++ y)
    (hshort : u.length < (M.field key (M.quoted x)).length) :
    (M.stringPattern key).captures u = [] := by
  by_contra hne
  obtain ⟨m, hm, g, hg, hclose⟩ := Regex.Pattern.exists_of_captures hne
  obtain ⟨t, ht⟩ := hu
  have hbefore : (M.stringPattern key).before.runs (M.field key (M.quoted x) ++ y) =
      [(M.quote :: key ++ [M.quote] ++ [M.colon] ++ [M.quote], x ++ M.quote :: y)] := by
    have hvalue : (M.keyRegex key).runs (M.field key (M.quoted x) ++ y) =
        [(M.quote :: key ++ [M.quote] ++ [M.colon], M.quote :: (x ++ M.quote :: y))] := by
      rw [← keyRegex_value (M.unspaced M.quote (by simp)) (x ++ M.quote :: y)]
      simp [field, quoted]
    simp [stringPattern, Regex.runs, hvalue]
  have hlift := Regex.runs_append hm t
  rw [ht, hbefore, List.mem_singleton, Prod.mk.injEq] at hlift
  obtain ⟨hhead, htail⟩ := hlift
  obtain ⟨z, hz⟩ : ∃ z, g.2 = M.quote :: z := by
    cases hg2 : g.2 with
    | nil => simp [hg2, stringPattern, Regex.runs] at hclose
    | cons b z =>
        by_cases hb : b = M.quote
        · exact ⟨z, by rw [hb]⟩
        · simp [hg2, hb, stringPattern, Regex.runs] at hclose
  have hsplit := Regex.runs_split hg
  have hend : g.1 ++ M.quote :: (z ++ t) = x ++ M.quote :: y := by
    rw [← htail, ← hsplit, hz, List.append_assoc, List.cons_append]
  have hinside : M.Inside g.1 := inside_of_rounds hg
  obtain ⟨hgroup, -⟩ := hinside.unique hx hend
  have hlength := congrArg List.length (Regex.runs_split hm)
  rw [← hsplit, hz, hhead, hgroup] at hlength
  simp only [field, quoted, List.length_append, List.length_cons, List.length_nil] at hlength hshort
  omega

/-- In a text that is cut before the closing quote of the only field with the key, the field is not
found. -/
theorem search_stringPattern_cut (hkey : M.IsKey key) (hx : M.Inside x) {u : List α}
    (hskips : (M.stringPattern key).Skips name (M.field key (M.quoted x) ++ M.comma :: y))
    (hu : u <+: name ++ M.field key (M.quoted x))
    (hshort : u.length < (name ++ M.field key (M.quoted x)).length) :
    (M.stringPattern key).search u = none := by
  have hbehind : (M.stringPattern key).Skips (key ++ [M.quote, M.colon] ++ M.quoted x)
      (M.comma :: y) :=
    (skips_behind_name captures_stringPattern hkey hkey _).append
      (skips_string captures_stringPattern hkey hx y)
  have htext : M.field key (M.quoted x) = M.quote :: (key ++ [M.quote, M.colon] ++ M.quoted x) := by
    simp [field]
  rw [htext] at hskips hu
  refine Regex.Pattern.search_cut hskips hbehind hu rfl fun v hv heq => ?_
  rw [← htext] at hv
  refine captures_cut (y := []) hx (by rwa [List.append_nil]) ?_
  rw [← heq, List.length_append, List.length_append] at hshort
  omega

theorem search_stringPattern_field (hx : M.Inside x) (y : List α) :
    (M.stringPattern key).search (M.field key (M.quoted x) ++ y) = some x := by
  have htext : M.field key (M.quoted x) ++ y =
      M.quote :: (key ++ M.quote :: M.colon :: M.quote :: (x ++ M.quote :: y)) := by
    simp [field, quoted]
  rw [htext, search_stringPattern hx]

/-- Where the key is, the first way to match its value is what is found. -/
theorem search_valuePattern {value : Regex α} (hspace : M.isSpace a = false)
    (hvalue : (value.runs (a :: x ++ y)).head? = some (a :: x, y)) :
    (M.valuePattern key value).search
      (M.quote :: (key ++ M.quote :: M.colon :: (a :: x ++ y))) = some (a :: x) := by
  obtain ⟨more, hruns⟩ := List.head?_eq_some_iff.mp hvalue
  have hcaptures : (M.valuePattern key value).captures
      (M.quote :: (key ++ M.quote :: M.colon :: (a :: x ++ y))) =
        (a :: x) :: more.map Prod.fst := by
    rw [Regex.Pattern.captures, valuePattern, List.cons_append, keyRegex_value hspace,
      ← List.cons_append]
    simp only [List.flatMap_cons, List.flatMap_nil, List.append_nil, hruns, Regex.runs,
      List.map_cons, List.map_nil, ← List.map_eq_flatMap]
  exact Regex.Pattern.search_of_captures hcaptures

theorem search_valuePattern_field {value : Regex α} (hspace : M.isSpace a = false)
    (hvalue : (value.runs (a :: x ++ y)).head? = some (a :: x, y)) :
    (M.valuePattern key value).search (M.field key (a :: x) ++ y) = some (a :: x) := by
  have htext : M.field key (a :: x) ++ y =
      M.quote :: (key ++ M.quote :: M.colon :: (a :: x ++ y)) := by
    simp [field]
  rw [htext, search_valuePattern hspace hvalue]

end Searching

end Marks
