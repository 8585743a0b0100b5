import Mathlib.Data.List.TakeWhile
import ServeInfer.Lib.ForallMem

/-!
# Searching with backtracking

Regular expressions as the ECMAScript grammar's matcher runs them: the ways an
expression can match are tried in an order of preference, the star first going
on, and a search takes the first way at the first place. A pattern has one group.
-/

/-- A regular expression over an alphabet. -/
inductive Regex (α : Type*)
  | empty
  | one (p : α → Bool)
  | seq (r t : Regex α)
  | alt (r t : Regex α)
  | star (r : Regex α)

namespace Regex

variable {α : Type*}

/-- The ways a star can match, each as what it matched and what is left; a round that matches
nothing is none. -/
def rounds (f : List α → List (List α × List α)) : ℕ → List α → List (List α × List α)
  | 0, s => [([], s)]
  | n + 1, s =>
      ((f s).flatMap fun m =>
        if m.2.length < s.length then (rounds f n m.2).map fun m' => (m.1 ++ m'.1, m'.2)
        else []) ++ [([], s)]

/-- The ways an expression can match at the beginning of a text, in order of preference. -/
def runs : Regex α → List α → List (List α × List α)
  | .empty, s => [([], s)]
  | .one _, [] => []
  | .one p, a :: s => if p a then [([a], s)] else []
  | .seq r t, s => (r.runs s).flatMap fun m => (t.runs m.2).map fun m' => (m.1 ++ m'.1, m'.2)
  | .alt r t, s => r.runs s ++ t.runs s
  | .star r, s => rounds r.runs s.length s

/-- The text itself. -/
def literal [DecidableEq α] : List α → Regex α
  | [] => .empty
  | a :: x => .seq (.one fun b => b = a) (literal x)

/-- A pattern with one group. -/
structure Pattern (α : Type*) where
  before : Regex α
  group : Regex α
  after : Regex α := .empty

namespace Pattern

/-- The ways a pattern can match at the beginning of a text, as what its group matched. -/
def captures (p : Pattern α) (s : List α) : List (List α) :=
  (p.before.runs s).flatMap fun m =>
    (p.group.runs m.2).flatMap fun g => (p.after.runs g.2).map fun _ => g.1

/-- What the group matched where the pattern first matches. -/
def search (p : Pattern α) : List α → Option (List α)
  | [] => (p.captures []).head?
  | a :: s => ((p.captures (a :: s)).head?).or (p.search s)

end Pattern

variable {r t : Regex α} {s rest m : List α} {p : α → Bool} {a : α}

theorem rounds_split {f : List α → List (List α × List α)}
    (hf : ∀ s m, m ∈ f s → m.1 ++ m.2 = s) {n : ℕ} {w : List α × List α} (h : w ∈ rounds f n s) :
    w.1 ++ w.2 = s := by
  induction n generalizing s w with
  | zero =>
      obtain rfl := List.mem_singleton.mp h
      rfl
  | succ n ih =>
      rcases List.mem_append.mp h with hround | hnone
      · obtain ⟨u, hu, hmem⟩ := List.mem_flatMap.mp hround
        split at hmem
        · obtain ⟨v, hv, rfl⟩ := List.mem_map.mp hmem
          rw [List.append_assoc, ih hv, hf s u hu]
        · cases hmem
      · obtain rfl := List.mem_singleton.mp hnone
        rfl

theorem mem_runs_one {w : List α × List α} :
    w ∈ (Regex.one p).runs s ↔ ∃ a t, s = a :: t ∧ p a = true ∧ w = ([a], t) := by
  cases s with
  | nil => simp [runs]
  | cons a s =>
      rw [runs]
      split
      · rename_i hp
        simp [hp]
      · rename_i hp
        simp [hp]

/-- A way to match divides the text in two. -/
theorem runs_split {w : List α × List α} (h : w ∈ r.runs s) : w.1 ++ w.2 = s := by
  induction r generalizing s w with
  | empty =>
      obtain rfl := List.mem_singleton.mp h
      rfl
  | one p =>
      obtain ⟨a, t, rfl, -, rfl⟩ := mem_runs_one.mp h
      rfl
  | seq r t ihr iht =>
      obtain ⟨u, hu, hmem⟩ := List.mem_flatMap.mp h
      obtain ⟨v, hv, rfl⟩ := List.mem_map.mp hmem
      rw [List.append_assoc, iht hv, ihr hu]
  | alt r t ihr iht =>
      rcases List.mem_append.mp h with hr | ht
      · exact ihr hr
      · exact iht ht
  | star r ih => exact rounds_split (fun s m hm => ih hm) h

theorem rounds_append {f : List α → List (List α × List α)}
    (hf : ∀ s m t, m ∈ f s → (m.1, m.2 ++ t) ∈ f (s ++ t)) {n k : ℕ} (hn : n ≤ k)
    {w : List α × List α} (h : w ∈ rounds f n s) (t : List α) :
    (w.1, w.2 ++ t) ∈ rounds f k (s ++ t) := by
  have hnone : ∀ k, ([], s ++ t) ∈ rounds f k (s ++ t) := by
    intro k
    cases k with
    | zero => exact List.mem_singleton_self _
    | succ k => exact List.mem_append_right _ (List.mem_singleton_self _)
  induction n generalizing s w k with
  | zero =>
      obtain rfl := List.mem_singleton.mp h
      exact hnone k
  | succ n ih =>
      obtain ⟨k, rfl⟩ := Nat.exists_eq_succ_of_ne_zero (Nat.ne_zero_of_lt hn)
      rcases List.mem_append.mp h with hround | hstop
      · obtain ⟨u, hu, hmem⟩ := List.mem_flatMap.mp hround
        split at hmem
        · rename_i hshort
          obtain ⟨v, hv, rfl⟩ := List.mem_map.mp hmem
          have hlonger : (u.2 ++ t).length < (s ++ t).length := by
            rw [List.length_append, List.length_append]
            omega
          refine List.mem_append_left _ (List.mem_flatMap.mpr ⟨_, hf s u t hu, ?_⟩)
          rw [if_pos hlonger]
          refine List.mem_map.mpr ⟨_, ih (Nat.le_of_succ_le_succ hn) hv ?_, rfl⟩
          intro k
          cases k with
          | zero => exact List.mem_singleton_self _
          | succ k => exact List.mem_append_right _ (List.mem_singleton_self _)
        · cases hmem
      · obtain rfl := List.mem_singleton.mp hstop
        exact hnone _

/-- What matches at the beginning of a text still does where the text goes on. -/
theorem runs_append {w : List α × List α} (h : w ∈ r.runs s) (t : List α) :
    (w.1, w.2 ++ t) ∈ r.runs (s ++ t) := by
  induction r generalizing s w t with
  | empty =>
      obtain rfl := List.mem_singleton.mp h
      exact List.mem_singleton_self _
  | one p =>
      obtain ⟨a, s, rfl, hp, rfl⟩ := mem_runs_one.mp h
      exact mem_runs_one.mpr ⟨a, s ++ t, rfl, hp, rfl⟩
  | seq r q ihr ihq =>
      obtain ⟨u, hu, hmem⟩ := List.mem_flatMap.mp h
      obtain ⟨v, hv, rfl⟩ := List.mem_map.mp hmem
      exact List.mem_flatMap.mpr ⟨_, ihr hu t, List.mem_map.mpr ⟨_, ihq hv t, rfl⟩⟩
  | alt r q ihr ihq =>
      rcases List.mem_append.mp h with hr | hq
      · exact List.mem_append_left _ (ihr hr t)
      · exact List.mem_append_right _ (ihq hq t)
  | star r ih =>
      refine rounds_append (fun s m t hm => ih hm t) ?_ h t
      rw [List.length_append]
      exact Nat.le_add_right _ _

section Literal

variable [DecidableEq α]

theorem runs_literal_append (x s : List α) : (literal x).runs (x ++ s) = [(x, s)] := by
  induction x with
  | nil => rfl
  | cons a x ih => simp [literal, runs, ih]

theorem runs_literal_of_not {x : List α} (h : ¬ x <+: s) : (literal x).runs s = [] := by
  induction x generalizing s with
  | nil => exact absurd (List.nil_prefix) h
  | cons a x ih =>
      cases s with
      | nil => rfl
      | cons b s =>
          by_cases hb : b = a
          · subst hb
            have hx : ¬ x <+: s := fun hp => h (List.cons_prefix_cons.mpr ⟨rfl, hp⟩)
            simp [literal, runs, ih hx]
          · simp [literal, runs, hb]

end Literal

/-- The expression is repeated for as long as it matches, and it can match in one way only. -/
inductive Greedy (r : Regex α) : List α → List α → List α → Prop
  | stop {s : List α} (h : r.runs s = []) : Greedy r s [] s
  | more {s m s' m' rest : List α} (h : r.runs s = [(m, s')]) (hshort : s'.length < s.length)
      (hrest : Greedy r s' m' rest) : Greedy r s (m ++ m') rest

/-- A star in front of what cannot begin as its body does goes on for as long as it can. -/
theorem Greedy.flatMap_rounds {β : Type*} (h : Greedy r s m rest)
    {f : List α × List α → List β} (hf : ∀ m s, r.runs s ≠ [] → f (m, s) = []) {n : ℕ}
    (hn : s.length ≤ n) : (rounds r.runs n s).flatMap f = f (m, rest) := by
  induction h generalizing f n with
  | @stop s hstop =>
      cases n with
      | zero => simp [rounds]
      | succ n => simp [rounds, hstop]
  | @more s m s' m' rest hmore hshort _ ih =>
      cases n with
      | zero => exact absurd hshort (by omega)
      | succ n =>
          have hlast : f ([], s) = [] := hf [] s (by simp [hmore])
          have hnext : (rounds r.runs n s').flatMap (fun g => f (m ++ g.1, g.2)) =
              f (m ++ m', rest) := by
            refine ih (f := fun g => f (m ++ g.1, g.2)) ?_ (by omega)
            exact fun m s hs => hf _ s hs
          simp only [rounds, hmore, List.flatMap_cons, List.flatMap_nil, List.append_nil,
            if_pos hshort, List.flatMap_append, List.flatMap_map, hlast]
          exact hnext

theorem Greedy.flatMap_star {β : Type*} (h : Greedy r s m rest)
    {f : List α × List α → List β} (hf : ∀ m s, r.runs s ≠ [] → f (m, s) = []) :
    ((Regex.star r).runs s).flatMap f = f (m, rest) :=
  h.flatMap_rounds hf (Nat.le_refl _)

/-- Where the body does not match, a star matches nothing. -/
theorem runs_star_of_stop (h : r.runs s = []) : (Regex.star r).runs s = [([], s)] := by
  cases s with
  | nil => rfl
  | cons a s => simp [runs, rounds, h]

theorem head_rounds_one (hm : ∀ b ∈ m, p b = true) (ha : p a = false) {n : ℕ}
    (hn : m.length ≤ n) :
    (rounds (Regex.one p).runs n (m ++ a :: s)).head? = some (m, a :: s) := by
  induction m generalizing n with
  | nil =>
      cases n with
      | zero => rfl
      | succ n => simp [rounds, runs, ha]
  | cons b m ih =>
      cases n with
      | zero => exact absurd hn (Nat.not_succ_le_zero _)
      | succ n =>
          have hrest := ih (fun c hc => hm c (List.mem_cons_of_mem b hc))
            (Nat.le_of_succ_le_succ hn)
          have hb : p b = true := hm b List.mem_cons_self
          obtain ⟨more, hmore⟩ := List.head?_eq_some_iff.mp hrest
          simp [rounds, runs, hb, hmore]

/-- The first way to match a star of one character goes on as far as it can. -/
theorem head_star_one (hm : ∀ b ∈ m, p b = true) (ha : p a = false) (s : List α) :
    ((Regex.star (.one p)).runs (m ++ a :: s)).head? = some (m, a :: s) := by
  apply head_rounds_one hm ha
  simp

/-- And so does the first way to match one or more of it. -/
theorem head_plus_one (hne : m ≠ []) (hm : ∀ b ∈ m, p b = true) (ha : p a = false) (s : List α) :
    ((Regex.seq (.one p) (.star (.one p))).runs (m ++ a :: s)).head? = some (m, a :: s) := by
  cases m with
  | nil => exact absurd rfl hne
  | cons b m =>
      have hrest := head_star_one (fun c hc => hm c (List.mem_cons_of_mem b hc)) ha s
      obtain ⟨more, hmore⟩ := List.head?_eq_some_iff.mp hrest
      have hfirst : p b = true := hm b List.mem_cons_self
      rw [List.cons_append, runs, runs, if_pos hfirst, List.flatMap_singleton, hmore]
      rfl

namespace Pattern

/-- The pattern matches nowhere in the first text, where the second one follows. -/
def Skips (p : Pattern α) (x y : List α) : Prop :=
  ∀ v, v <:+ x → v ≠ [] → p.captures (v ++ y) = []

variable {p : Pattern α} {x y z : List α}

/-- Where a pattern does not match, the search goes on. -/
theorem search_skip (h : p.captures (a :: s) = []) : p.search (a :: s) = p.search s := by
  rw [search, h, List.head?_nil, Option.none_or]

theorem skips_nil : p.Skips [] y := by
  intro v hv hne
  exact absurd (List.suffix_nil.mp hv) hne

theorem Skips.cons (hx : p.Skips x y) (h : p.captures (a :: (x ++ y)) = []) :
    p.Skips (a :: x) y := by
  intro v hv hne
  rcases List.suffix_cons_iff.mp hv with rfl | hv
  · exact h
  · exact hx v hv hne

theorem Skips.append (hx : p.Skips x (y ++ z)) (hy : p.Skips y z) : p.Skips (x ++ y) z := by
  induction x with
  | nil => exact hy
  | cons a x ih =>
      have hrest : p.Skips x (y ++ z) := fun v hv hne => hx v (hv.trans (List.suffix_cons a x)) hne
      refine (ih hrest).cons ?_
      rw [List.append_assoc]
      exact hx (a :: x) (List.suffix_refl _) (List.cons_ne_nil a x)

theorem Skips.search (h : p.Skips x y) : p.search (x ++ y) = p.search y := by
  induction x with
  | nil => rfl
  | cons a x ih =>
      have hhead := h (a :: x) (List.suffix_refl _) (List.cons_ne_nil a x)
      rw [List.cons_append] at hhead ⊢
      rw [search_skip hhead, ih fun v hv hne => h v (hv.trans (List.suffix_cons a x)) hne]

/-- Nothing is found where the pattern matches nowhere. -/
theorem search_eq_none (h : ∀ v, v <:+ s → p.captures v = []) : p.search s = none := by
  induction s with
  | nil => rw [search, h [] (List.suffix_refl _), List.head?_nil]
  | cons a s ih =>
      rw [search_skip (h _ (List.suffix_refl _)),
        ih fun v hv => h v (hv.trans (List.suffix_cons a s))]

/-- A match, with its ways through the three parts. -/
theorem exists_of_captures (h : p.captures s ≠ []) :
    ∃ m ∈ p.before.runs s, ∃ g ∈ p.group.runs m.2, p.after.runs g.2 ≠ [] := by
  obtain ⟨x, hx⟩ := List.exists_mem_of_ne_nil _ h
  obtain ⟨m, hm, hmem⟩ := List.mem_flatMap.mp hx
  obtain ⟨g, hg, hend⟩ := List.mem_flatMap.mp hmem
  refine ⟨m, hm, g, hg, ?_⟩
  rintro hnone
  rw [hnone] at hend
  cases hend

/-- A pattern that does not match a text matches no beginning of it. -/
theorem captures_of_prefix {u : List α} (h : p.captures s = []) (hu : u <+: s) :
    p.captures u = [] := by
  by_contra hne
  obtain ⟨t, rfl⟩ := hu
  obtain ⟨m, hm, g, hg, hafter⟩ := exists_of_captures hne
  obtain ⟨e, he⟩ := List.exists_mem_of_ne_nil _ hafter
  have hmem : g.1 ∈ p.captures (u ++ t) :=
    List.mem_flatMap.mpr ⟨_, runs_append hm t, List.mem_flatMap.mpr ⟨_, runs_append hg t,
      List.mem_map.mpr ⟨_, runs_append he t, rfl⟩⟩⟩
  rw [h] at hmem
  cases hmem

/-- A pattern that is skipped up to a place, does not match there in what is left of the text, and
is skipped behind it, is not found. -/
theorem search_cut {u : List α} (hx : p.Skips x (a :: (y ++ z))) (hy : p.Skips y z)
    (hu : u <+: x ++ a :: y) (hend : p.captures [] = [])
    (hcut : ∀ v, v <+: a :: y → x ++ v = u → p.captures v = []) : p.search u = none := by
  refine search_eq_none fun v hv => ?_
  obtain ⟨w, rfl⟩ := hv
  by_cases hne : v = []
  · rw [hne, hend]
  obtain ⟨t, ht⟩ := hu
  rw [List.append_assoc] at ht
  rcases List.append_eq_append_iff.mp ht with ⟨c, rfl, hd⟩ | ⟨c, rfl, hd⟩
  · cases c with
    | nil => exact hcut v ⟨t, hd⟩ (by rw [List.append_nil])
    | cons e c =>
        -- the place lies before the match
        have hskip := hx (e :: c) ⟨w, rfl⟩ (List.cons_ne_nil e c)
        refine captures_of_prefix hskip ⟨t ++ z, ?_⟩
        rw [← List.append_assoc, hd, List.append_assoc]
        rfl
  · cases c with
    | nil => exact hcut v ⟨t, hd.symm⟩ (by rw [List.append_nil])
    | cons e c =>
        -- the place lies behind the beginning of the match
        obtain ⟨-, rfl⟩ := List.cons.inj hd
        have hskip := hy (v ++ t) ⟨c, rfl⟩ (List.append_ne_nil_of_left_ne_nil hne t)
        refine captures_of_prefix hskip ⟨t ++ z, ?_⟩
        rw [List.append_assoc]

theorem captures_of_before (h : p.before.runs s = []) : p.captures s = [] := by
  rw [captures, h, List.flatMap_nil]

theorem search_of_captures {x : List α} {xs : List (List α)} (h : p.captures (a :: s) = x :: xs) :
    p.search (a :: s) = some x := by
  rw [search, h, List.head?_cons, Option.some_or]

end Pattern

end Regex
