import Mathlib.Algebra.BigOperators.Group.List.Lemmas
import Mathlib.Algebra.GroupWithZero.Nat
import Mathlib.Data.List.Dedup
import Mathlib.Data.List.Nodup
import Mathlib.Data.List.Perm.Basic

/-!
# Insertion-ordered maps

A finite map that remembers the order in which its keys were first set:
replacing a value keeps the key's place, a new key goes to the end, and a
deleted key loses its place. The key list never repeats a key.
-/

/-- A finite map whose entries are kept in the order their keys were inserted. -/
@[ext] structure OrderedMap (κ ν : Type*) where
  entries : List (κ × ν)
  nodup : (entries.map Prod.fst).Nodup

namespace OrderedMap

variable {κ ν : Type*}

instance : EmptyCollection (OrderedMap κ ν) := ⟨⟨[], List.nodup_nil⟩⟩

instance : Inhabited (OrderedMap κ ν) := ⟨∅⟩

instance [DecidableEq κ] [DecidableEq ν] : DecidableEq (OrderedMap κ ν) := fun m n =>
  decidable_of_iff (m.entries = n.entries) ⟨OrderedMap.ext, congrArg entries⟩

def keys (m : OrderedMap κ ν) : List κ := m.entries.map Prod.fst

def size (m : OrderedMap κ ν) : ℕ := m.entries.length

@[simp] theorem entries_empty : (∅ : OrderedMap κ ν).entries = [] := rfl

@[simp] theorem keys_empty : (∅ : OrderedMap κ ν).keys = [] := rfl

@[simp] theorem size_empty : (∅ : OrderedMap κ ν).size = 0 := rfl

theorem length_keys (m : OrderedMap κ ν) : m.keys.length = m.size := by
  simp [keys, size]

theorem keys_nodup (m : OrderedMap κ ν) : m.keys.Nodup := m.nodup

variable [DecidableEq κ]

def get? (m : OrderedMap κ ν) (k : κ) : Option ν :=
  (m.entries.find? fun e => e.1 = k).map Prod.snd

def has (m : OrderedMap κ ν) (k : κ) : Bool := (m.get? k).isSome

/-- Replace the value of a present key in place, or append a new entry. -/
def set (m : OrderedMap κ ν) (k : κ) (v : ν) : OrderedMap κ ν where
  entries :=
    if k ∈ m.keys then m.entries.map fun e => if e.1 = k then (k, v) else e
    else m.entries ++ [(k, v)]
  nodup := by
    split
    · have h : ((m.entries.map fun e => if e.1 = k then (k, v) else e).map Prod.fst) =
          m.entries.map Prod.fst := by
        rw [List.map_map]
        refine List.map_congr_left fun e _ => ?_
        by_cases he : e.1 = k <;> simp [he]
      rw [h]
      exact m.nodup
    · rename_i hk
      rw [List.map_append]
      exact m.nodup.append (List.nodup_singleton k) (by simpa [keys] using hk)

def delete (m : OrderedMap κ ν) (k : κ) : OrderedMap κ ν where
  entries := m.entries.filter fun e => e.1 ≠ k
  nodup := m.nodup.sublist (List.filter_sublist.map Prod.fst)

/-- Drop the longest leading run of entries that satisfy the predicate. -/
def dropWhile (p : κ × ν → Bool) (m : OrderedMap κ ν) : OrderedMap κ ν where
  entries := m.entries.dropWhile p
  nodup := m.nodup.sublist ((List.dropWhile_sublist p).map Prod.fst)

/-- Drop the given number of oldest entries. -/
def dropOldest (n : ℕ) (m : OrderedMap κ ν) : OrderedMap κ ν where
  entries := m.entries.drop n
  nodup := m.nodup.sublist ((List.drop_sublist n m.entries).map Prod.fst)

theorem entries_set_of_mem {m : OrderedMap κ ν} {k : κ} (v : ν) (h : k ∈ m.keys) :
    (m.set k v).entries = m.entries.map fun e => if e.1 = k then (k, v) else e :=
  if_pos h

theorem entries_set_of_notMem {m : OrderedMap κ ν} {k : κ} (v : ν) (h : k ∉ m.keys) :
    (m.set k v).entries = m.entries ++ [(k, v)] :=
  if_neg h

/-- Setting a key that is there changes its entry and nothing around it. -/
theorem exists_entries_set {m : OrderedMap κ ν} {k : κ} (h : k ∈ m.keys) (v : ν) :
    ∃ front back w, m.entries = front ++ (k, w) :: back ∧
      (m.set k v).entries = front ++ (k, v) :: back := by
  obtain ⟨⟨k', w⟩, hmem, hk⟩ := List.mem_map.mp h
  obtain rfl : k' = k := hk
  obtain ⟨front, back, hentries⟩ := List.append_of_mem hmem
  have hnodup := m.nodup
  rw [hentries, List.map_append, List.map_cons, List.nodup_append, List.nodup_cons] at hnodup
  obtain ⟨-, ⟨hback, -⟩, hfront⟩ := hnodup
  have hkeep : ∀ l : List (κ × ν), (∀ e ∈ l, e.1 ≠ k') →
      l.map (fun e => if e.1 = k' then (k', v) else e) = l := by
    intro l hl
    calc l.map (fun e => if e.1 = k' then (k', v) else e)
        = l.map id := List.map_congr_left fun e he => if_neg (hl e he)
      _ = l := List.map_id l
  have hbehind : ∀ e ∈ back, e.1 ≠ k' := by
    rintro e he rfl
    have hin : e.1 ∈ back.map Prod.fst := List.mem_map_of_mem he
    exact hback hin
  refine ⟨front, back, w, hentries, ?_⟩
  rw [entries_set_of_mem v h, hentries, List.map_append, List.map_cons, if_pos rfl,
    hkeep front fun e he => hfront _ (List.mem_map_of_mem he) _ List.mem_cons_self,
    hkeep back hbehind]

theorem get?_eq_some_iff {m : OrderedMap κ ν} {k : κ} {v : ν} :
    m.get? k = some v ↔ (k, v) ∈ m.entries := by
  obtain ⟨l, hl⟩ := m
  simp only [get?, Option.map_eq_some_iff]
  induction l with
  | nil => simp
  | cons e l ih =>
      have hn := List.nodup_cons.mp hl
      by_cases he : e.1 = k
      · have hout : (k, v) ∉ l := fun hm =>
          hn.1 (he ▸ List.mem_map_of_mem (f := Prod.fst) hm)
        simp [he, hout, Prod.ext_iff, eq_comm]
      · have hne : (k, v) ≠ e := fun h => he (h ▸ rfl)
        simpa [List.find?_cons, he, hne] using ih hn.2

theorem get?_eq_none_iff {m : OrderedMap κ ν} {k : κ} : m.get? k = none ↔ k ∉ m.keys := by
  rw [Option.eq_none_iff_forall_ne_some]
  simp only [ne_eq, get?_eq_some_iff, keys, List.mem_map, Prod.exists, not_exists, not_and]
  exact ⟨fun h a b hm ha => h b (ha ▸ hm), fun h b hm => h k b hm rfl⟩

theorem has_iff {m : OrderedMap κ ν} {k : κ} : m.has k = true ↔ k ∈ m.keys := by
  rw [has, Option.isSome_iff_ne_none, ne_eq, get?_eq_none_iff, not_not]

@[simp] theorem get?_empty (k : κ) : (∅ : OrderedMap κ ν).get? k = none := rfl

theorem get?_set (m : OrderedMap κ ν) (k k' : κ) (v : ν) :
    (m.set k v).get? k' = if k = k' then some v else m.get? k' := by
  apply Option.ext
  intro w
  rw [get?_eq_some_iff]
  by_cases hk : k ∈ m.keys
  · rw [entries_set_of_mem v hk, List.mem_map]
    constructor
    · rintro ⟨e, he, heq⟩
      by_cases hek : e.1 = k
      · rw [if_pos hek, Prod.mk.injEq] at heq
        simp [heq.1, heq.2]
      · rw [if_neg hek] at heq
        subst heq
        rw [if_neg (Ne.symm hek)]
        exact get?_eq_some_iff.mpr he
    · intro h
      by_cases hkk : k = k'
      · obtain ⟨e, he, hek⟩ := List.mem_map.mp hk
        rw [if_pos hkk, Option.some.injEq] at h
        exact ⟨e, he, by simp [hek, hkk, h]⟩
      · rw [if_neg hkk] at h
        exact ⟨(k', w), get?_eq_some_iff.mp h, by simp [Ne.symm hkk]⟩
  · rw [entries_set_of_notMem v hk]
    by_cases hkk : k = k'
    · subst hkk
      have hout : (k, w) ∉ m.entries := fun hm => hk (List.mem_map_of_mem (f := Prod.fst) hm)
      simp [hout, eq_comm]
    · simp [hkk, Ne.symm hkk, get?_eq_some_iff]

@[simp] theorem get?_set_self (m : OrderedMap κ ν) (k : κ) (v : ν) :
    (m.set k v).get? k = some v := by
  simp [get?_set]

theorem get?_set_of_ne (m : OrderedMap κ ν) {k k' : κ} (v : ν) (h : k ≠ k') :
    (m.set k v).get? k' = m.get? k' := by
  simp [get?_set, h]

theorem get?_delete (m : OrderedMap κ ν) (k k' : κ) :
    (m.delete k).get? k' = if k = k' then none else m.get? k' := by
  apply Option.ext
  intro w
  rw [get?_eq_some_iff]
  by_cases hkk : k = k'
  · simp [delete, hkk]
  · simp [delete, hkk, Ne.symm hkk, get?_eq_some_iff]

theorem keys_set_of_mem {m : OrderedMap κ ν} {k : κ} (v : ν) (h : k ∈ m.keys) :
    (m.set k v).keys = m.keys := by
  rw [keys, entries_set_of_mem v h, List.map_map]
  refine List.map_congr_left fun e _ => ?_
  by_cases he : e.1 = k <;> simp [he]

theorem keys_set_of_notMem {m : OrderedMap κ ν} {k : κ} (v : ν) (h : k ∉ m.keys) :
    (m.set k v).keys = m.keys ++ [k] := by
  rw [keys, entries_set_of_notMem v h, List.map_append, List.map_singleton, keys]

theorem size_set (m : OrderedMap κ ν) (k : κ) (v : ν) :
    (m.set k v).size = if k ∈ m.keys then m.size else m.size + 1 := by
  by_cases h : k ∈ m.keys
  · rw [← length_keys, keys_set_of_mem v h, length_keys, if_pos h]
  · rw [← length_keys, keys_set_of_notMem v h, if_neg h, List.length_append, length_keys,
      List.length_singleton]

theorem keys_delete (m : OrderedMap κ ν) (k : κ) : (m.delete k).keys = m.keys.erase k := by
  rw [m.keys_nodup.erase_eq_filter, keys, keys, delete, List.filter_map]
  exact congrArg _ (List.filter_congr fun e _ => by simp [bne, beq_eq_decide])

theorem size_delete (m : OrderedMap κ ν) (k : κ) :
    (m.delete k).size = if k ∈ m.keys then m.size - 1 else m.size := by
  rw [← length_keys, keys_delete, List.length_erase, length_keys]

theorem size_delete_le (m : OrderedMap κ ν) (k : κ) : (m.delete k).size ≤ m.size := by
  rw [size_delete]
  split <;> omega

theorem delete_comm (m : OrderedMap κ ν) (k k' : κ) :
    (m.delete k).delete k' = (m.delete k').delete k := by
  apply OrderedMap.ext
  simp only [delete, List.filter_filter]
  exact List.filter_congr fun _ _ => Bool.and_comm _ _

theorem delete_set_of_ne (m : OrderedMap κ ν) {k k' : κ} (v : ν) (h : k ≠ k') (hk : k ∉ m.keys) :
    (m.set k v).delete k' = (m.delete k').set k v := by
  have hk' : k ∉ (m.delete k').keys := by
    rw [keys_delete]
    exact fun hmem => hk (List.mem_of_mem_erase hmem)
  apply OrderedMap.ext
  rw [entries_set_of_notMem v hk']
  simp only [delete, entries_set_of_notMem v hk, List.filter_append]
  simp [h]

/-- Setting a new key and deleting it again. -/
theorem delete_set_self (m : OrderedMap κ ν) {k : κ} (v : ν) (hk : k ∉ m.keys) :
    (m.set k v).delete k = m := by
  apply OrderedMap.ext
  simp only [delete, entries_set_of_notMem v hk, List.filter_append]
  have hkeep : m.entries.filter (fun e => e.1 ≠ k) = m.entries := by
    apply List.filter_eq_self.mpr
    intro e he
    have hne : e.1 ≠ k := fun heq => hk (heq ▸ List.mem_map_of_mem (f := Prod.fst) he)
    simpa using hne
  rw [hkeep]
  simp

/-- Where what satisfies the predicate comes first, dropping it is filtering. -/
theorem dropWhile_eq_filter {α : Type*} {p : α → Bool} {l : List α}
    (h : l.Pairwise fun a b => p b = true → p a = true) :
    l.dropWhile p = l.filter fun a => !p a := by
  induction h with
  | nil => rfl
  | @cons a l hfirst _ ih =>
      rw [List.dropWhile_cons, List.filter_cons]
      cases ha : p a with
      | true => simpa using ih
      | false =>
          have hkeep : l.filter (fun b => !p b) = l := by
            apply List.filter_eq_self.mpr
            intro b hb
            cases hpb : p b with
            | false => rfl
            | true =>
                rw [hfirst b hb hpb] at ha
                cases ha
          rw [hkeep]
          rfl

omit [DecidableEq κ] in
theorem entries_dropWhile {p : κ × ν → Bool} {m : OrderedMap κ ν}
    (h : m.entries.Pairwise fun a b => p b = true → p a = true) :
    (m.dropWhile p).entries = m.entries.filter fun e => !p e :=
  dropWhile_eq_filter h

theorem get?_dropWhile {p : κ × ν → Bool} {m : OrderedMap κ ν}
    (h : m.entries.Pairwise fun a b => p b = true → p a = true) (k : κ) :
    (m.dropWhile p).get? k = (m.get? k).filter fun v => !p (k, v) := by
  apply Option.ext
  intro v
  rw [get?_eq_some_iff, entries_dropWhile h, List.mem_filter, Option.filter_eq_some_iff,
    get?_eq_some_iff]

/-- Counts over distinct keys that leave nothing out add up to the whole. -/
theorem sum_counts {counts : OrderedMap κ ℕ} {l : List κ}
    (hcount : ∀ m, l.count m = (counts.get? m).getD 0)
    (hpos : ∀ m n, counts.get? m = some n → 0 < n) :
    (counts.entries.map Prod.snd).sum = l.length := by
  have hkeys : counts.keys.Perm l.dedup := by
    rw [List.perm_ext_iff_of_nodup counts.keys_nodup l.nodup_dedup]
    intro m
    rw [List.mem_dedup, ← List.count_pos_iff (a := m) (l := l), hcount m]
    cases hm : counts.get? m with
    | none =>
        have hout := OrderedMap.get?_eq_none_iff.mp hm
        simp [hout]
    | some n =>
        have hin : m ∈ counts.keys := by
          by_contra hout
          rw [OrderedMap.get?_eq_none_iff.mpr hout] at hm
          cases hm
        simp [hin, hpos m n hm]
  calc (counts.entries.map Prod.snd).sum
      = (counts.keys.map fun m => l.count m).sum := by
        rw [OrderedMap.keys, List.map_map]
        apply congrArg
        apply List.map_congr_left
        rintro ⟨m, n⟩ he
        have hm : counts.get? m = some n := OrderedMap.get?_eq_some_iff.mpr he
        simp [hcount m, hm]
    _ = (l.dedup.map fun m => l.count m).sum := (hkeys.map _).sum_eq
    _ = l.length := List.sum_map_count_dedup_eq_length l

end OrderedMap
