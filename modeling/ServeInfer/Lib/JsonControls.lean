import Mathlib.Data.List.TakeDrop
import Mathlib.Data.List.TakeWhile
import ServeInfer.Lib.JsonText

/-!
# Control characters in JSON texts

What a parser reads holds no control character but white space, so a single other one
anywhere makes a text unreadable.
-/

open Utf8 (CodeUnit)

namespace Json

/-- A unit that a text may hold. -/
def Fine (u : CodeUnit) : Prop := ¬ u < 0x20 ∨ isSpace u = true

instance (u : CodeUnit) : Decidable (Fine u) := inferInstanceAs (Decidable (_ ∨ _))

/-- What has been read in front of the rest is fine. -/
def Takes (s rest : List CodeUnit) : Prop := ∃ front, s = front ++ rest ∧ ∀ u ∈ front, Fine u

variable {s t rest rest' more : List CodeUnit} {u : CodeUnit} {v : Json} {fuel : ℕ}

theorem Takes.refl (s : List CodeUnit) : Takes s s := ⟨[], rfl, by simp⟩

theorem Takes.trans (h : Takes s t) (h' : Takes t rest) : Takes s rest := by
  obtain ⟨front, rfl, hfront⟩ := h
  obtain ⟨front', rfl, hfront'⟩ := h'
  refine ⟨front ++ front', by rw [List.append_assoc], ?_⟩
  intro u hu
  rcases List.mem_append.mp hu with hu | hu
  · exact hfront u hu
  · exact hfront' u hu

theorem Takes.cons (hu : Fine u) (h : Takes s rest) : Takes (u :: s) rest := by
  apply Takes.trans _ h
  exact ⟨[u], rfl, by simpa using hu⟩

theorem takes_append (hs : ∀ u ∈ s, Fine u) (rest : List CodeUnit) : Takes (s ++ rest) rest :=
  ⟨s, rfl, hs⟩

theorem takes_skipSpace (s : List CodeUnit) : Takes s (skipSpace s) := by
  refine ⟨s.takeWhile isSpace, List.takeWhile_append_dropWhile.symm, ?_⟩
  intro u hu
  exact .inr (List.mem_takeWhile_imp hu)

/-- What stands behind the space, when the rest begins with a mark. -/
theorem takes_of_skipSpace (h : skipSpace s = u :: rest) (hu : Fine u) : Takes s rest :=
  (takes_skipSpace s).trans (h ▸ (Takes.refl rest).cons hu)

theorem fine_of_hexDigit (h : (hexDigit u).isSome = true) : Fine u := by
  left
  intro hlow
  have hcontrol : ∀ n : Fin 0x20, (hexDigit (.ofNat n)).isSome = false := by decide
  have hn := hcontrol ⟨u.toNat, UInt16.lt_iff_toNat_lt.mp hlow⟩
  rw [UInt16.ofNat_toNat, h] at hn
  cases hn

theorem takes_parseString (n : ℕ) (hn : s.length ≤ n) (h : parseString s = some (t, rest)) :
    Takes s rest := by
  induction n generalizing s t with
  | zero =>
      obtain rfl := List.length_eq_zero_iff.mp (Nat.le_zero.mp hn)
      rw [parseString] at h
      cases h
  | succ n ih =>
      cases s with
      | nil =>
          rw [parseString] at h
          cases h
      | cons c s =>
          rw [List.length_cons] at hn
          cases stringStart h with
          | close hc _ hrest =>
              subst hc hrest
              exact (Takes.refl _).cons (.inl (by decide))
          | @escape e d t' s' hc ht he hs hmore =>
              subst hc ht
              rw [List.length_cons] at hn
              have hfine : Fine e := by
                left
                intro hlow
                have hcontrol : ∀ n : Fin 0x20, escaped (.ofNat n) = none := by decide
                have hnone := hcontrol ⟨e.toNat, UInt16.lt_iff_toNat_lt.mp hlow⟩
                rw [UInt16.ofNat_toNat, he] at hnone
                cases hnone
              exact ((ih (by omega) hmore).cons hfine).cons (.inl (by decide))
          | @hex x y z w d t' s' hc ht hx hs hmore =>
              subst hc ht
              simp only [List.length_cons] at hn
              have hdigits := hexDigit_of_hex4 hx
              have hfine : ∀ u ∈ [backslash, 0x75, x, y, z, w], Fine u := by
                simp only [List.forall_mem_cons] at hdigits ⊢
                obtain ⟨hx, hy, hz, hw, -⟩ := hdigits
                exact ⟨.inl (by decide), .inl (by decide), fine_of_hexDigit hx, fine_of_hexDigit hy,
                  fine_of_hexDigit hz, fine_of_hexDigit hw, by simp⟩
              exact (takes_append hfine t').trans (ih (by omega) hmore)
          | @plain s' hc hs hmore =>
              exact (ih (by omega) hmore).cons (.inl hc.2.2)

theorem fine_of_isDigit (h : isDigit u = true) : Fine u := by
  left
  intro hlow
  simp only [isDigit, Bool.and_eq_true, decide_eq_true_eq] at h
  exact absurd (UInt16.lt_of_lt_of_le hlow (UInt16.le_trans (by decide) h.1)) (UInt16.lt_irrefl u)

theorem takes_parseDigits (h : parseDigits s = some (t, rest)) : Takes s rest := by
  rw [parseDigits] at h
  dsimp only at h
  split at h
  · cases h
  · obtain ⟨-, rfl⟩ := Prod.mk.inj (Option.some.inj h)
    rw [List.span_eq_takeWhile_dropWhile]
    refine ⟨s.takeWhile isDigit, List.takeWhile_append_dropWhile.symm, ?_⟩
    intro u hu
    exact fine_of_isDigit (List.mem_takeWhile_imp hu)

theorem takes_parseInt (h : parseInt s = some (t, rest)) : Takes s rest := by
  rw [parseInt.eq_def] at h
  split at h
  · obtain ⟨-, rfl⟩ := Prod.mk.inj (Option.some.inj h)
    exact (Takes.refl _).cons (.inl (by decide))
  · exact takes_parseDigits h

theorem takes_parseFraction (h : parseFraction s = some (t, rest)) : Takes s rest := by
  rw [parseFraction.eq_def] at h
  split at h
  · obtain ⟨e, he, heq⟩ := Option.map_eq_some_iff.mp h
    obtain ⟨-, rfl⟩ := Prod.mk.inj heq
    exact (takes_parseDigits he).cons (.inl (by decide))
  · obtain ⟨-, rfl⟩ := Prod.mk.inj (Option.some.inj h)
    exact Takes.refl _

theorem takes_parseExponent (h : parseExponent s = some (t, rest)) : Takes s rest := by
  rw [parseExponent.eq_def] at h
  split at h
  · rename_i e s
    split at h
    · rename_i he
      have hfine : Fine e := by
        rcases he with rfl | rfl
        · exact .inl (by decide)
        · exact .inl (by decide)
      split at h
      · rename_i sign s'
        split at h
        · rename_i hsign
          have hsignfine : Fine sign := by
            rcases hsign with rfl | rfl
            · exact .inl (by decide)
            · exact .inl (by decide)
          obtain ⟨d, hd, heq⟩ := Option.map_eq_some_iff.mp h
          obtain ⟨-, rfl⟩ := Prod.mk.inj heq
          exact ((takes_parseDigits hd).cons hsignfine).cons hfine
        · obtain ⟨d, hd, heq⟩ := Option.map_eq_some_iff.mp h
          obtain ⟨-, rfl⟩ := Prod.mk.inj heq
          exact (takes_parseDigits hd).cons hfine
      · cases h
    · obtain ⟨-, rfl⟩ := Prod.mk.inj (Option.some.inj h)
      exact Takes.refl _
  · obtain ⟨-, rfl⟩ := Prod.mk.inj (Option.some.inj h)
    exact Takes.refl _

theorem takes_parseSign (s : List CodeUnit) : Takes s (parseSign s).2 := by
  rw [parseSign.eq_def]
  split
  · exact (Takes.refl _).cons (.inl (by decide))
  · exact Takes.refl _

theorem takes_parseNumber (h : parseNumber s = some (v, rest)) : Takes s rest := by
  simp only [parseNumber, Option.bind_eq_bind, Option.bind_eq_some_iff] at h
  obtain ⟨int, hint, fraction, hfraction, exponent, hexponent, heq⟩ := h
  obtain ⟨-, rfl⟩ := Prod.mk.inj (Option.some.inj heq)
  exact (((takes_parseSign s).trans (takes_parseInt hint)).trans
    (takes_parseFraction hfraction)).trans (takes_parseExponent hexponent)

theorem takes_parseWord {word : String} (hword : ∀ u ∈ units word, Fine u) {value : Json}
    (h : parseWord word value s = some (v, rest)) : Takes s rest := by
  rw [parseWord] at h
  split at h
  · rename_i hprefix
    obtain ⟨-, rfl⟩ := Prod.mk.inj (Option.some.inj h)
    obtain ⟨more, rfl⟩ := List.isPrefixOf_iff_prefix.mp hprefix
    rw [List.drop_left]
    exact takes_append hword more
  · cases h

theorem takes_parseValue_succ
    (hmembers : ∀ s m rest, parseMembers fuel s = some (m, rest) → Takes s rest)
    (hitems : ∀ s m rest, parseItems fuel s = some (m, rest) → Takes s rest)
    (h : parseValue (fuel + 1) s = some (v, rest)) : Takes s rest := by
  rw [parseValue] at h
  have hspace := takes_skipSpace s
  have hword : ∀ word ∈ ["true", "false", "null"], ∀ u ∈ units word, Fine u := by decide
  apply hspace.trans
  cases hs : skipSpace s with
  | nil =>
      rw [hs] at h
      cases h
  | cons u more =>
      rw [hs] at h
      dsimp only at h
      split_ifs at h with hquote hbrace hbracket ht hf hn
      · obtain ⟨⟨t, rest'⟩, hmore, heq⟩ := Option.map_eq_some_iff.mp h
        obtain ⟨-, rfl⟩ := Prod.mk.inj heq
        subst hquote
        exact (takes_parseString _ (Nat.le_refl _) hmore).cons (.inl (by decide))
      · subst hbrace
        refine Takes.cons (.inl (by decide)) ((takes_skipSpace more).trans ?_)
        split at h
        · rename_i hclose
          obtain ⟨-, rfl⟩ := Prod.mk.inj (Option.some.inj h)
          rw [hclose]
          exact (Takes.refl _).cons (.inl (by decide))
        · obtain ⟨⟨m, rest'⟩, hmore, heq⟩ := Option.map_eq_some_iff.mp h
          obtain ⟨-, rfl⟩ := Prod.mk.inj heq
          exact hmembers _ _ _ hmore
      · subst hbracket
        refine Takes.cons (.inl (by decide)) ((takes_skipSpace more).trans ?_)
        split at h
        · rename_i hclose
          obtain ⟨-, rfl⟩ := Prod.mk.inj (Option.some.inj h)
          rw [hclose]
          exact (Takes.refl _).cons (.inl (by decide))
        · obtain ⟨⟨m, rest'⟩, hmore, heq⟩ := Option.map_eq_some_iff.mp h
          obtain ⟨-, rfl⟩ := Prod.mk.inj heq
          exact hitems _ _ _ hmore
      · exact takes_parseWord (hword "true" (by simp)) h
      · exact takes_parseWord (hword "false" (by simp)) h
      · exact takes_parseWord (hword "null" (by simp)) h
      · exact takes_parseNumber h

theorem takes_parseMembers_succ {m : List (List CodeUnit × Json)}
    (hvalue : ∀ s v rest, parseValue fuel s = some (v, rest) → Takes s rest)
    (hmembers : ∀ s m rest, parseMembers fuel s = some (m, rest) → Takes s rest)
    (h : parseMembers (fuel + 1) s = some (m, rest)) : Takes s rest := by
  rw [parseMembers] at h
  split at h
  · rename_i s' hquote
    apply (takes_of_skipSpace hquote (.inl (by decide))).trans
    obtain ⟨⟨key, s₁⟩, hkey, h⟩ := Option.bind_eq_some_iff.mp h
    apply (takes_parseString _ (Nat.le_refl _) hkey).trans
    dsimp only at h
    split at h
    · rename_i s₂ hcolon
      apply (takes_of_skipSpace hcolon (.inl (by decide))).trans
      obtain ⟨⟨value, s₃⟩, hv, h⟩ := Option.bind_eq_some_iff.mp h
      apply (hvalue _ _ _ hv).trans
      dsimp only at h
      split at h
      · rename_i s₄ hcomma
        apply (takes_of_skipSpace hcomma (.inl (by decide))).trans
        obtain ⟨⟨m', rest'⟩, hmore, heq⟩ := Option.map_eq_some_iff.mp h
        obtain ⟨-, rfl⟩ := Prod.mk.inj heq
        exact hmembers _ _ _ hmore
      · rename_i s₄ hbrace
        obtain ⟨-, rfl⟩ := Prod.mk.inj (Option.some.inj h)
        exact takes_of_skipSpace hbrace (.inl (by decide))
      · cases h
    · cases h
  · cases h

theorem takes_parseItems_succ {items : List Json}
    (hvalue : ∀ s v rest, parseValue fuel s = some (v, rest) → Takes s rest)
    (hitems : ∀ s m rest, parseItems fuel s = some (m, rest) → Takes s rest)
    (h : parseItems (fuel + 1) s = some (items, rest)) : Takes s rest := by
  rw [parseItems] at h
  obtain ⟨⟨value, s₁⟩, hv, h⟩ := Option.bind_eq_some_iff.mp h
  apply (hvalue _ _ _ hv).trans
  dsimp only at h
  split at h
  · rename_i s₂ hcomma
    apply (takes_of_skipSpace hcomma (.inl (by decide))).trans
    obtain ⟨⟨m', rest'⟩, hmore, heq⟩ := Option.map_eq_some_iff.mp h
    obtain ⟨-, rfl⟩ := Prod.mk.inj heq
    exact hitems _ _ _ hmore
  · rename_i s₂ hbracket
    obtain ⟨-, rfl⟩ := Prod.mk.inj (Option.some.inj h)
    exact takes_of_skipSpace hbracket (.inl (by decide))
  · cases h

theorem takes_parse (fuel : ℕ) :
    (∀ s v rest, parseValue fuel s = some (v, rest) → Takes s rest) ∧
      (∀ s m rest, parseMembers fuel s = some (m, rest) → Takes s rest) ∧
        ∀ s m rest, parseItems fuel s = some (m, rest) → Takes s rest := by
  induction fuel with
  | zero =>
      refine ⟨?_, ?_, ?_⟩
      · intro s v rest h
        rw [parseValue] at h
        cases h
      · intro s m rest h
        rw [parseMembers] at h
        cases h
      · intro s m rest h
        rw [parseItems] at h
        cases h
  | succ fuel ih =>
      obtain ⟨hvalue, hmembers, hitems⟩ := ih
      refine ⟨?_, ?_, ?_⟩
      · intro s v rest h
        exact takes_parseValue_succ hmembers hitems h
      · intro s m rest h
        exact takes_parseMembers_succ hvalue hmembers h
      · intro s m rest h
        exact takes_parseItems_succ hvalue hitems h

/-- A text with a control character in it that is no white space cannot be read. -/
theorem fine_of_parse (h : parse s = some v) : ∀ u ∈ s, Fine u := by
  rw [parse] at h
  split at h
  · rename_i value rest hvalue
    split at h
    · rename_i hend
      obtain ⟨front, rfl, hfront⟩ := (takes_parse _).1 _ _ _ hvalue
      intro u hu
      rcases List.mem_append.mp hu with hu | hu
      · exact hfront u hu
      · have hall := List.dropWhile_eq_nil_iff.mp (List.isEmpty_iff.mp hend)
        exact .inr (hall u hu)
    · cases h
  · cases h

end Json
