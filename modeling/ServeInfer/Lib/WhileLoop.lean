/-!
# Loops with a condition and a break

The condition and the body of a loop may be undefined, and the body says whether it
comes back to the condition. An execution that finishes is a finite derivation; one
that is undefined somewhere, or that goes on forever, has none.
-/

namespace WhileLoop

variable {σ : Type}

/-- The loop that is entered in the first state ends in the second. -/
inductive Finishes (cond : σ → Option Bool) (body : σ → Option (Bool × σ)) : σ → σ → Prop
  | stop {s : σ} (h : cond s = some false) : Finishes cond body s s
  | leave {s t : σ} (h : cond s = some true) (hbody : body s = some (false, t)) :
      Finishes cond body s t
  | again {s t u : σ} (h : cond s = some true) (hbody : body s = some (true, t))
      (hrest : Finishes cond body t u) : Finishes cond body s u

variable {cond : σ → Option Bool} {body : σ → Option (Bool × σ)} {s t t' : σ}

/-- A loop ends in one state. -/
theorem Finishes.unique (h : Finishes cond body s t) (h' : Finishes cond body s t') : t = t' := by
  induction h with
  | stop hcond =>
      cases h' with
      | stop => rfl
      | leave hcond' => simp [hcond] at hcond'
      | again hcond' => simp [hcond] at hcond'
  | leave hcond hbody =>
      cases h' with
      | stop hcond' => simp [hcond] at hcond'
      | leave _ hbody' => simpa [hbody] using hbody'
      | again _ hbody' => simp [hbody] at hbody'
  | again hcond hbody _ ih =>
      cases h' with
      | stop hcond' => simp [hcond] at hcond'
      | leave _ hbody' => simp [hbody] at hbody'
      | again _ hbody' hrest' =>
          have hsame := hbody.symm.trans hbody'
          simp only [Option.some.injEq, Prod.mk.injEq, true_and] at hsame
          exact ih (hsame ▸ hrest')

/-- A condition that is undefined at the start. -/
theorem not_finishes (h : cond s = none) : ¬ Finishes cond body s t := by
  intro hfinishes
  cases hfinishes with
  | stop hcond => simp [h] at hcond
  | leave hcond => simp [h] at hcond
  | again hcond => simp [h] at hcond

/-- What every turn keeps at the condition, and what holds wherever the loop is left. -/
theorem Finishes.invariant {Inv Post : σ → Prop} (h : Finishes cond body s t) (h0 : Inv s)
    (hstop : ∀ s, Inv s → cond s = some false → Post s)
    (hleave : ∀ s t, Inv s → cond s = some true → body s = some (false, t) → Post t)
    (hagain : ∀ s t, Inv s → cond s = some true → body s = some (true, t) → Inv t) : Post t := by
  induction h with
  | stop hcond => exact hstop _ h0 hcond
  | leave hcond hbody => exact hleave _ _ h0 hcond hbody
  | again hcond hbody _ ih => exact ih (hagain _ _ h0 hcond hbody)

/-- A loop that is defined as long as the invariant holds, and whose turns use up what is left,
ends. -/
theorem exists_finishes {Inv : σ → Prop} (left : σ → Nat) (h0 : Inv s)
    (hcond : ∀ s, Inv s → ∃ b, cond s = some b)
    (hbody : ∀ s, Inv s → cond s = some true → ∃ b t, body s = some (b, t) ∧
      (b = true → Inv t ∧ left t < left s)) : ∃ t, Finishes cond body s t := by
  induction hleft : left s using Nat.strongRecOn generalizing s with
  | ind n ih =>
      obtain ⟨b, hb⟩ := hcond s h0
      cases b with
      | false => exact ⟨s, .stop hb⟩
      | true =>
          obtain ⟨again, t, ht, hnext⟩ := hbody s h0 hb
          cases again with
          | false => exact ⟨t, .leave hb ht⟩
          | true =>
              obtain ⟨hinv, hless⟩ := hnext rfl
              obtain ⟨u, hu⟩ := ih (left t) (hleft ▸ hless) hinv rfl
              exact ⟨u, .again hb ht hu⟩

end WhileLoop
