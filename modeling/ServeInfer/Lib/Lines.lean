import Mathlib.Data.List.Basic

/-!
# Lines and the text behind them

A text as lines that each end in a mark, and an unfinished line behind them. However
such a text is cut in two, the first part is some of the lines with the beginning of
the next one.
-/

namespace Lines

variable {α : Type*} {mark : α} {ls : List (List α)} {tail v w : List α}

/-- The lines with their marks. -/
def joined (mark : α) (ls : List (List α)) : List α := ls.flatMap fun l => l ++ [mark]

@[simp] theorem joined_nil : joined mark ([] : List (List α)) = [] := rfl

@[simp] theorem joined_cons (l : List α) (ls : List (List α)) :
    joined mark (l :: ls) = l ++ mark :: joined mark ls := by
  simp [joined]

@[simp] theorem joined_append (ls ls' : List (List α)) :
    joined mark (ls ++ ls') = joined mark ls ++ joined mark ls' :=
  List.flatMap_append

theorem splitOn_joined_append [BEq α] [LawfulBEq α] (hls : ∀ l ∈ ls, mark ∉ l) (tail : List α) :
    (joined mark ls ++ tail).splitOn mark = ls ++ tail.splitOn mark := by
  induction ls with
  | nil => rfl
  | cons l ls ih =>
      have hl := List.splitOn_eq_singleton (hls l List.mem_cons_self)
      have hrest := ih fun e he => hls e (List.mem_cons_of_mem l he)
      rw [joined_cons, List.append_assoc, List.cons_append, List.splitOn_append_cons_self, hl,
        hrest]
      rfl

theorem splitOn_joined [BEq α] [LawfulBEq α] (hls : ∀ l ∈ ls, mark ∉ l) (htail : mark ∉ tail) :
    (joined mark ls ++ tail).splitOn mark = ls ++ [tail] := by
  rw [splitOn_joined_append hls, List.splitOn_eq_singleton htail]

theorem intercalate_eq (mark : α) (ls : List (List α)) (tail : List α) :
    List.intercalate [mark] (ls ++ [tail]) = joined mark ls ++ tail := by
  induction ls with
  | nil => simp [List.intercalate]
  | cons l ls ih =>
      obtain ⟨l', ls', heq⟩ : ∃ l' ls', ls ++ [tail] = l' :: ls' :=
        List.exists_cons_of_ne_nil (by simp)
      rw [List.cons_append, joined_cons, List.append_assoc, List.cons_append, ← ih, heq]
      simp [List.intercalate, List.intersperse]

/-- Every text is some lines and one that is not finished. -/
theorem exists_lines [DecidableEq α] (mark : α) (text : List α) :
    ∃ ls tail, (∀ l ∈ ls, mark ∉ l) ∧ mark ∉ tail ∧ text = joined mark ls ++ tail := by
  induction text with
  | nil => exact ⟨[], [], by simp, List.not_mem_nil, rfl⟩
  | cons a text ih =>
      obtain ⟨ls, tail, hls, htail, rfl⟩ := ih
      by_cases ha : a = mark
      · subst ha
        refine ⟨[] :: ls, tail, ?_, htail, rfl⟩
        exact List.forall_mem_cons.mpr ⟨List.not_mem_nil, hls⟩
      · cases ls with
        | nil =>
            refine ⟨[], a :: tail, hls, ?_, rfl⟩
            rw [List.mem_cons, not_or]
            exact ⟨Ne.symm ha, htail⟩
        | cons l ls =>
            refine ⟨(a :: l) :: ls, tail, ?_, htail, by simp⟩
            rw [List.forall_mem_cons] at hls ⊢
            rw [List.mem_cons, not_or]
            exact ⟨⟨Ne.symm ha, hls.1⟩, hls.2⟩

/-- The first part of a text is some of its lines and the beginning of the next one. -/
theorem exists_split (hls : ∀ l ∈ ls, mark ∉ l) (htail : mark ∉ tail)
    (h : v ++ w = joined mark ls ++ tail) :
    ∃ front back rest, ls = front ++ back ∧ v = joined mark front ++ rest ∧ mark ∉ rest ∧
      rest ++ w = joined mark back ++ tail := by
  induction ls generalizing v with
  | nil =>
      have hv : mark ∉ v := by
        intro hmem
        have hmem' : mark ∈ v ++ w := List.mem_append_left w hmem
        rw [h] at hmem'
        exact htail hmem'
      exact ⟨[], [], v, rfl, rfl, hv, h⟩
  | cons l ls ih =>
      have hl := hls l List.mem_cons_self
      rw [joined_cons, List.append_assoc, List.cons_append] at h
      obtain ⟨more, rfl, hw⟩ | ⟨more, hv, hmore⟩ := List.append_eq_append_iff.mp h
      · refine ⟨[], (v ++ more) :: ls, v, rfl, rfl, fun hmem => hl (List.mem_append_left more hmem), ?_⟩
        rw [hw, joined_cons]
        simp
      · cases more with
        | nil =>
            rw [List.append_nil] at hv
            subst hv
            refine ⟨[], v :: ls, v, rfl, rfl, hl, ?_⟩
            rw [joined_cons, List.append_assoc, List.cons_append, hmore, List.nil_append]
        | cons b more =>
            obtain ⟨rfl, hrest⟩ := List.cons.inj hmore
            obtain ⟨front, back, rest, rfl, rfl, hclean, hbehind⟩ :=
              ih (fun e he => hls e (List.mem_cons_of_mem l he)) hrest.symm
            refine ⟨l :: front, back, rest, rfl, ?_, hclean, hbehind⟩
            rw [hv, joined_cons, List.append_assoc, List.cons_append]

/-- The first part of what is written for some items is what is written for the first of them,
with a beginning of what is written for the next one. -/
theorem exists_cut {β : Type*} {f : β → List α} {items : List β} (h : v ++ w = items.flatMap f) :
    ∃ front back begun, items = front ++ back ∧ v = front.flatMap f ++ begun ∧
      (back = [] ∧ begun = [] ∨
        ∃ item back' ended, back = item :: back' ∧ ended ≠ [] ∧ begun ++ ended = f item) := by
  induction items generalizing v w with
  | nil =>
      obtain ⟨rfl, -⟩ := List.append_eq_nil_iff.mp h
      exact ⟨[], [], [], rfl, rfl, Or.inl ⟨rfl, rfl⟩⟩
  | cons item items ih =>
      rw [List.flatMap_cons] at h
      have hbehind : ∀ more, v = f item ++ more → more ++ w = items.flatMap f →
          ∃ front back begun, item :: items = front ++ back ∧ v = front.flatMap f ++ begun ∧
            (back = [] ∧ begun = [] ∨
              ∃ item back' ended, back = item :: back' ∧ ended ≠ [] ∧
                begun ++ ended = f item) := by
        intro more hv hmore
        obtain ⟨front, back, begun, rfl, rfl, hcut⟩ := ih hmore
        refine ⟨item :: front, back, begun, rfl, ?_, hcut⟩
        rw [hv, List.flatMap_cons, List.append_assoc]
      obtain ⟨more, hitem, hw⟩ | ⟨more, hv, hmore⟩ := List.append_eq_append_iff.mp h
      · by_cases hnil : more = []
        · rw [hnil, List.append_nil] at hitem
          rw [hnil, List.nil_append] at hw
          exact hbehind [] (by rw [hitem, List.append_nil]) (by rw [hw, List.nil_append])
        · exact ⟨[], item :: items, v, rfl, rfl, Or.inr ⟨item, items, more, rfl, hnil, hitem.symm⟩⟩
      · exact hbehind more hv hmore.symm

end Lines
