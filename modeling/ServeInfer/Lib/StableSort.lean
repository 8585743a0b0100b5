import Mathlib.Data.List.Sort
import Mathlib.Data.List.Nodup

/-!
# The head of a stably sorted list

A stable sort keeps the order of elements it need not exchange. So an element
that comes out first was put before every earlier element because it had to be. Under a
total preorder the sort also commutes with leaving elements out.
-/

namespace StableSort

variable {α : Type*} {r : α → α → Prop} [DecidableRel r]

/-- The first element of the sorted list stands in the list. -/
theorem mem_of_head {l : List α} {b : α} (hb : (l.insertionSort r).head? = some b) : b ∈ l := by
  have hmem : b ∈ l.insertionSort r := List.mem_of_mem_head? hb
  exact (List.mem_insertionSort r).mp hmem

/-- The first element of the sorted list is not preceded, in the list, by one that may come
before it. -/
theorem not_rel_of_head {l : List α} {a b : α} (hl : l.Nodup)
    (hb : (l.insertionSort r).head? = some b) (hab : List.Sublist [a, b] l) : ¬ r a b := by
  intro h
  have hsub : List.Sublist [a, b] (l.insertionSort r) := List.pair_sublist_insertionSort h hab
  have hnd : (l.insertionSort r).Nodup := (List.perm_insertionSort r l).nodup_iff.mpr hl
  obtain ⟨rest, hrest⟩ : ∃ rest, l.insertionSort r = b :: rest := by
    cases hs : l.insertionSort r with
    | nil => simp [hs] at hb
    | cons c rest =>
        rw [hs, List.head?_cons, Option.some.injEq] at hb
        exact ⟨rest, by rw [hb]⟩
  rw [hrest] at hsub hnd
  -- `b` heads the list, so a sublist that holds it second would find it once more in the rest.
  have hin : b ∈ rest := by
    cases hsub with
    | cons _ hs => exact hs.subset (by simp)
    | cons_cons _ hs => exact hs.subset (by simp)
  exact (List.nodup_cons.mp hnd).1 hin

/-- Two members of a list ordered by a strict measure stand in it as their measures do. -/
theorem pair_sublist_of_lt {l : List α} {f : α → ℕ} (hl : l.Pairwise fun a b => f a < f b)
    {a b : α} (ha : a ∈ l) (hb : b ∈ l) (hab : f a < f b) : List.Sublist [a, b] l := by
  induction l with
  | nil => cases ha
  | cons c l ih =>
      rw [List.pairwise_cons] at hl
      rcases List.mem_cons.mp ha with rfl | ha'
      · rcases List.mem_cons.mp hb with rfl | hb'
        · exact absurd hab (lt_irrefl _)
        · exact (List.singleton_sublist.mpr hb').cons_cons _
      · rcases List.mem_cons.mp hb with rfl | hb'
        · exact absurd hab (Nat.lt_asymm (hl.1 a ha'))
        · exact (ih hl.2 ha' hb').cons _

/-- An element that may come before all others is inserted at the front. -/
theorem orderedInsert_of_forall {a : α} {l : List α} (h : ∀ b ∈ l, r a b) :
    l.orderedInsert r a = a :: l := by
  cases l with
  | nil => rfl
  | cons b l => exact List.orderedInsert_cons_of_le r l (h b List.mem_cons_self)

section Filter

variable [IsTrans α r]

theorem filter_orderedInsert (p : α → Bool) (a : α) {l : List α} (hl : l.Pairwise r) :
    (l.orderedInsert r a).filter p =
      if p a then (l.filter p).orderedInsert r a else l.filter p := by
  induction l with
  | nil => cases ha : p a <;> simp [ha]
  | cons b l ih =>
      obtain ⟨hb, hl⟩ := List.pairwise_cons.mp hl
      by_cases hab : r a b
      · rw [List.orderedInsert_cons_of_le r l hab, List.filter_cons]
        split
        · symm
          apply orderedInsert_of_forall
          intro c hc
          rcases List.mem_cons.mp (List.mem_of_mem_filter hc) with rfl | hin
          · exact hab
          · exact IsTrans.trans a b c hab (hb c hin)
        · rfl
      · rw [List.orderedInsert_of_not_le r l hab, List.filter_cons, List.filter_cons, ih hl]
        cases hpb : p b with
        | true => cases ha : p a <;> simp [hab]
        | false => simp

/-- Sorting what passes a test is testing what was sorted. -/
theorem filter_insertionSort [Std.Total r] (p : α → Bool) (l : List α) :
    (l.filter p).insertionSort r = (l.insertionSort r).filter p := by
  induction l with
  | nil => rfl
  | cons a l ih =>
      rw [List.insertionSort_cons, filter_orderedInsert p a (List.pairwise_insertionSort r l), ← ih,
        List.filter_cons]
      cases p a <;> rfl

/-- The first that passes a test, in the order of the whole list. -/
theorem head?_insertionSort_filter [Std.Total r] (p : α → Bool) (l : List α) :
    ((l.filter p).insertionSort r).head? = (l.insertionSort r).find? p := by
  rw [filter_insertionSort, List.head?_filter]

end Filter

end StableSort
