import Mathlib.Data.List.Induction
import ServeInfer.Lib.ForallMem

/-!
# Runs of a machine with partial steps

A machine takes an action only where its step function is defined. A run is
the list of its actions in order; every statement about a run quantifies over
the states reached after its prefixes.
-/

namespace Machine

variable {σ α : Type*}

/-- Execute the actions in order; an action that is not enabled ends in `none`. -/
def exec (step : σ → α → Option σ) (s : σ) (as : List α) : Option σ :=
  as.foldlM step s

/-- The predicate holds in every state the run passes through, its first included. -/
def Always (step : σ → α → Option σ) (P : σ → Prop) (s : σ) (as : List α) : Prop :=
  ∀ pre, pre <+: as → ∀ s', exec step s pre = some s' → P s'

/-- Every action of the run meets the condition in the state it is taken from. -/
def Guarded (step : σ → α → Option σ) (ok : σ → α → Prop) (s : σ) (as : List α) : Prop :=
  ∀ pre a, pre ++ [a] <+: as → ∀ s', exec step s pre = some s' → ok s' a

variable {step : σ → α → Option σ} {s s' : σ} {as : List α} {a : α}

@[simp] theorem exec_nil : exec step s [] = some s := rfl

@[simp] theorem exec_cons :
    exec step s (a :: as) = (step s a).bind fun s' => exec step s' as := by
  simp [exec, List.foldlM_cons, Option.bind_eq_bind]

theorem exec_append (bs : List α) :
    exec step s (as ++ bs) = (exec step s as).bind fun s' => exec step s' bs := by
  simp [exec, List.foldlM_append, Option.bind_eq_bind]

theorem exec_snoc :
    exec step s (as ++ [a]) = (exec step s as).bind fun s' => step s' a := by
  rw [exec_append]
  cases exec step s as with
  | none => rfl
  | some t => cases h : step t a <;> simp [h]

/-- Every prefix of an executable run is executable. -/
theorem exec_prefix {pre : List α} (hp : pre <+: as) (h : exec step s as = some s') :
    ∃ t, exec step s pre = some t := by
  obtain ⟨rest, rfl⟩ := hp
  rw [exec_append] at h
  cases hpre : exec step s pre with
  | none => simp [hpre] at h
  | some t => exact ⟨t, rfl⟩

/-- What holds at the start and is kept by every step holds after every run. -/
theorem exec_invariant {P : σ → Prop} (h0 : P s)
    (hstep : ∀ t a t', P t → step t a = some t' → P t') (h : exec step s as = some s') :
    P s' := by
  induction as using List.reverseRecOn generalizing s' with
  | nil => cases h; exact h0
  | append_singleton as a ih =>
      rw [exec_snoc] at h
      cases ht : exec step s as with
      | none => simp [ht] at h
      | some t =>
          rw [ht, Option.bind_some] at h
          exact hstep t a s' (ih ht) h

/-- An invariant whose steps may use another invariant. -/
theorem exec_invariant_under {P Q : σ → Prop} (hP0 : P s) (hQ0 : Q s)
    (hP : ∀ t a t', P t → step t a = some t' → P t')
    (hQ : ∀ t a t', P t → Q t → step t a = some t' → Q t') (h : exec step s as = some s') :
    Q s' := by
  have hboth : P s' ∧ Q s' := exec_invariant (P := fun t => P t ∧ Q t) ⟨hP0, hQ0⟩
    (fun t a t' ht hs => ⟨hP t a t' ht.1 hs, hQ t a t' ht.1 ht.2 hs⟩) h
  exact hboth.2

/-- What does not hold at the start and holds in the end, some step has brought about. -/
theorem exists_step_of_exec {P : σ → Prop} (h0 : ¬ P s) (h : exec step s as = some s')
    (hP : P s') : ∃ pre a t t', pre ++ [a] <+: as ∧ exec step s pre = some t ∧
      step t a = some t' ∧ exec step s (pre ++ [a]) = some t' ∧ ¬ P t ∧ P t' := by
  induction as using List.reverseRecOn generalizing s' with
  | nil =>
      cases h
      exact absurd hP h0
  | append_singleton as a ih =>
      have hrun := h
      rw [exec_snoc] at h
      obtain ⟨t, ht, hta⟩ := Option.bind_eq_some_iff.mp h
      by_cases hbefore : P t
      · obtain ⟨pre, b, u, u', hp, hrest⟩ := ih ht hbefore
        exact ⟨pre, b, u, u', hp.trans (List.prefix_append as [a]), hrest⟩
      · exact ⟨as, a, t, s', List.prefix_rfl, ht, hta, hrun, hbefore, hP⟩

theorem Guarded.restrict {ok : σ → α → Prop} {pre : List α} (hg : Guarded step ok s as)
    (hp : pre <+: as) : Guarded step ok s pre :=
  fun q a hq => hg q a (hq.trans hp)

theorem Always.restrict {P : σ → Prop} {pre : List α} (ha : Always step P s as)
    (hp : pre <+: as) : Always step P s pre :=
  fun q hq => ha q (hq.trans hp)

theorem Always.last {P : σ → Prop} (ha : Always step P s as)
    (h : exec step s as = some s') : P s' :=
  ha as (List.prefix_refl as) s' h

/-- One more action that meets the condition. -/
theorem Guarded.snoc {ok : σ → α → Prop} (hg : Guarded step ok s as)
    (h : exec step s as = some s') (hok : ok s' a) : Guarded step ok s (as ++ [a]) := by
  intro pre b hp t ht
  rcases List.prefix_concat_iff.mp hp with heq | hshort
  · obtain ⟨rfl, hb⟩ := List.append_inj' heq rfl
    obtain rfl := List.singleton_inj.mp hb
    obtain rfl := Option.some.inj (ht.symm.trans h)
    exact hok
  · exact hg pre b hshort t ht

/-- What is left of a guarded run is guarded. -/
theorem Guarded.after {ok : σ → α → Prop} {bs : List α} (hg : Guarded step ok s (as ++ bs))
    (h : exec step s as = some s') : Guarded step ok s' bs := by
  intro pre a hp t ht
  apply hg (as ++ pre) a
  · rw [List.append_assoc]
    exact (List.prefix_append_right_inj as).mpr hp
  · rw [exec_append, h, Option.bind_some, ht]

@[simp] theorem guarded_nil {ok : σ → α → Prop} : Guarded step ok s [] := by
  intro pre a hp
  exact absurd (List.prefix_nil.mp hp) (by simp)

/-- A run is guarded when its first action is and the rest is guarded after it. -/
theorem guarded_cons {ok : σ → α → Prop} :
    Guarded step ok s (a :: as) ↔ ok s a ∧ ∀ t, step s a = some t → Guarded step ok t as := by
  constructor
  · intro hg
    refine ⟨hg [] a (by simp) s rfl, ?_⟩
    intro t ht pre b hp u hu
    refine hg (a :: pre) b ?_ u ?_
    · exact List.prefix_cons_iff.mpr (.inr ⟨_, rfl, hp⟩)
    · rw [exec_cons, ht]
      exact hu
  · rintro ⟨hok, hrest⟩ pre b hp u hu
    cases pre with
    | nil =>
        obtain ⟨rest, hr⟩ := hp
        rw [List.nil_append, List.singleton_append, List.cons.injEq] at hr
        cases hu
        exact hr.1 ▸ hok
    | cons c pre =>
        rw [List.cons_append, List.cons_prefix_cons] at hp
        rw [exec_cons, hp.1] at hu
        obtain ⟨t, ht, hu⟩ := Option.bind_eq_some_iff.mp hu
        exact hrest t ht pre b hp.2 u hu

instance decidableGuarded {ok : σ → α → Prop} [∀ t b, Decidable (ok t b)] :
    (t : σ) → (bs : List α) → Decidable (Guarded step ok t bs)
  | _, [] => isTrue guarded_nil
  | t, b :: bs =>
      haveI : ∀ u, Decidable (Guarded step ok u bs) := fun u => decidableGuarded u bs
      haveI : Decidable (∀ u, step t b = some u → Guarded step ok u bs) :=
        inferInstanceAs (Decidable (∀ u ∈ step t b, Guarded step ok u bs))
      decidable_of_iff _ guarded_cons.symm

/-- The guarded form of the invariant rule: a step may use the condition on its action. -/
theorem Guarded.invariant {ok : σ → α → Prop} {P : σ → Prop} (hg : Guarded step ok s as)
    (h0 : P s) (hstep : ∀ t a t', P t → ok t a → step t a = some t' → P t')
    (h : exec step s as = some s') : P s' := by
  induction as using List.reverseRecOn generalizing s' with
  | nil => cases h; exact h0
  | append_singleton as a ih =>
      rw [exec_snoc] at h
      cases ht : exec step s as with
      | none => simp [ht] at h
      | some t =>
          rw [ht, Option.bind_some] at h
          exact hstep t a s' (ih (hg.restrict (List.prefix_append as [a])) ht)
            (hg as a (List.prefix_refl _) t ht) h

/-- A guarded run keeps its invariant in every state it passes through. -/
theorem Guarded.always {ok : σ → α → Prop} {P : σ → Prop} (hg : Guarded step ok s as)
    (h0 : P s) (hstep : ∀ t a t', P t → ok t a → step t a = some t' → P t') :
    Always step P s as :=
  fun _ hp _ h => (hg.restrict hp).invariant h0 hstep h

/-- When a run goes wrong. Good states stay good unless a step spoils one: then the property
fails at once and a mark is left that no later step removes. So the property holds all along
exactly when no mark is found at the end. -/
theorem always_iff_unmarked {good mark P : σ → Prop} (h0 : good s)
    (hgood : ∀ t, good t → P t ∧ ¬ mark t)
    (hmark : ∀ t a t', mark t → step t a = some t' → mark t')
    (hstep : ∀ t a t', good t → step t a = some t' → good t' ∨ ¬ P t' ∧ mark t')
    (h : exec step s as = some s') : Always step P s as ↔ ¬ mark s' := by
  constructor
  · intro hall
    have hs' : good s' := by
      induction as using List.reverseRecOn generalizing s' with
      | nil => cases h; exact h0
      | append_singleton as a ih =>
          have hlast : P s' := hall.last h
          rw [exec_snoc] at h
          obtain ⟨t, ht, hta⟩ := Option.bind_eq_some_iff.mp h
          have hgt : good t := ih ht (hall.restrict (List.prefix_append as [a]))
          rcases hstep t a s' hgt hta with hg | hw
          · exact hg
          · exact absurd hlast hw.1
    exact (hgood s' hs').2
  · intro hclean
    have hs' : ∀ pre, pre <+: as → ∀ t, exec step s pre = some t → good t := by
      induction as using List.reverseRecOn generalizing s' with
      | nil =>
          intro pre hpre t ht
          rw [List.prefix_nil.mp hpre] at ht
          cases ht
          exact h0
      | append_singleton as a ih =>
          have hrun := h
          rw [exec_snoc] at h
          obtain ⟨t, ht, hta⟩ := Option.bind_eq_some_iff.mp h
          have hbefore := ih ht fun hm => hclean (hmark t a s' hm hta)
          intro pre hpre u hu
          rcases List.prefix_concat_iff.mp hpre with heq | hshort
          · rw [heq, hrun, Option.some.injEq] at hu
            subst hu
            rcases hstep t a s' (hbefore as (List.prefix_refl as) t ht) hta with hg | hw
            · exact hg
            · exact absurd hw.2 hclean
          · exact hbefore pre hshort u hu
    exact fun pre hpre t ht => (hgood t (hs' pre hpre t ht)).1

/-- Which runs keep a property. Steps that meet the condition keep the state good, and a step
that does not spoils the property at once: so the property holds all along exactly in the runs
whose steps all meet the condition. -/
theorem always_iff_guarded {good P : σ → Prop} {ok : σ → α → Prop} (h0 : good s)
    (hgood : ∀ t, good t → P t)
    (hstep : ∀ t a t', good t → ok t a → step t a = some t' → good t')
    (hbad : ∀ t a t', good t → ¬ ok t a → step t a = some t' → ¬ P t')
    (h : exec step s as = some s') : Always step P s as ↔ Guarded step ok s as := by
  constructor
  · intro hall
    induction as using List.reverseRecOn generalizing s' with
    | nil => exact guarded_nil
    | append_singleton as a ih =>
        have hlast : P s' := hall.last h
        rw [exec_snoc] at h
        obtain ⟨t, ht, hta⟩ := Option.bind_eq_some_iff.mp h
        have hbefore := ih ht (hall.restrict (List.prefix_append as [a]))
        intro pre b hpre u hu
        rcases List.prefix_concat_iff.mp hpre with heq | hshort
        · obtain ⟨rfl, hb⟩ := List.append_inj' heq rfl
          obtain rfl := List.singleton_inj.mp hb
          obtain rfl := Option.some.inj (ht.symm.trans hu)
          by_contra hnot
          exact hbad t b s' (hbefore.invariant h0 hstep ht) hnot hta hlast
        · exact hbefore pre b hshort u hu
  · intro hg pre hpre t ht
    exact hgood t ((hg.restrict hpre).invariant h0 hstep ht)

/-- A property that no step wins back holds at the end exactly in the runs whose steps all meet the
condition under which they keep it. -/
theorem lasts_iff_guarded {I P : σ → Prop} {ok : σ → α → Prop} (hI : I s) (h0 : P s)
    (hkeep : ∀ t a t', I t → step t a = some t' → I t')
    (hback : ∀ t a t', step t a = some t' → P t' → P t)
    (hstep : ∀ t a t', I t → P t → step t a = some t' → (P t' ↔ ok t a))
    (h : exec step s as = some s') : P s' ↔ Guarded step ok s as := by
  constructor
  · intro hlast
    have hall : Always step P s as := by
      intro pre hpre t ht
      obtain ⟨rest, rfl⟩ := hpre
      rw [exec_append, ht, Option.bind_some] at h
      by_contra hbad
      exact exec_invariant (P := fun u => ¬ P u) hbad
        (fun u a u' hu hua hP => hu (hback u a u' hua hP)) h hlast
    intro pre a hpre t ht
    have hpre' : pre <+: as := (List.prefix_append pre [a]).trans hpre
    obtain ⟨u, hu⟩ := exec_prefix hpre h
    have hkept : P u := hall _ hpre u hu
    rw [exec_snoc, ht, Option.bind_some] at hu
    exact (hstep t a u (exec_invariant hI hkeep ht) (hall pre hpre' t ht) hu).mp hkept
  · intro hg
    have hboth : I s' ∧ P s' := hg.invariant (P := fun u => I u ∧ P u) ⟨hI, h0⟩
      (fun t a t' ht hok hta =>
        ⟨hkeep t a t' ht.1 hta, (hstep t a t' ht.1 ht.2 hta).mpr hok⟩) h
    exact hboth.2

end Machine
