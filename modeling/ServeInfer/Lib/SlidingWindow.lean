import Mathlib.Algebra.Order.Group.Defs
import Mathlib.Data.List.Induction
import ServeInfer.Lib.OrderedMap

/-!
# Sliding windows

A queue of instants to which every new instant is added at the back and from which
the instants that have left the window are dropped at the front. As long as time
does not go back, the queue holds the instants of its history in the window.
-/

namespace SlidingWindow

variable {α : Type*} [AddCommGroup α] [LinearOrder α]

/-- The queue after one more instant. -/
def push (window : α) (queue : List α) (now : α) : List α :=
  (queue ++ [now]).dropWhile fun t => t < now - window

/-- The queue is what a history comes to: the same instants are in every window that ends later. -/
structure Tracks (window : α) (times queue : List α) : Prop where
  sublist : queue.Sublist times
  agrees : ∀ cutoff, (∀ t ∈ times, t - window ≤ cutoff) →
    queue.filter (fun t => cutoff ≤ t) = times.filter fun t => cutoff ≤ t

variable {window now : α} {times queue : List α}

theorem tracks_nil (window : α) : Tracks window [] [] := ⟨List.Sublist.refl [], fun _ _ => rfl⟩

omit [AddCommGroup α] in
/-- Among instants in order the old ones come first. -/
theorem dropWhile_eq_filter (h : queue.Pairwise (· ≤ ·)) (cutoff : α) :
    queue.dropWhile (fun t => t < cutoff) = queue.filter fun t => cutoff ≤ t := by
  have hfirst : queue.Pairwise fun a b =>
      decide (b < cutoff) = true → decide (a < cutoff) = true := by
    apply h.imp
    intro a b hab hb
    rw [decide_eq_true_eq] at hb ⊢
    exact lt_of_le_of_lt hab hb
  rw [OrderedMap.dropWhile_eq_filter hfirst]
  apply List.filter_congr
  intro t _
  rw [← decide_not]
  exact decide_eq_decide.mpr not_lt

/-- The queue after one more instant holds what its history has in the window. -/
theorem Tracks.push_eq (h : Tracks window times queue) [IsOrderedAddMonoid α]
    (hsorted : (times ++ [now]).Pairwise (· ≤ ·)) :
    push window queue now = (times ++ [now]).filter fun t => now - window ≤ t := by
  have hqueue : (queue ++ [now]).Pairwise (· ≤ ·) :=
    hsorted.sublist (h.sublist.append (List.Sublist.refl [now]))
  have hpast : ∀ t ∈ times, t - window ≤ now - window := by
    intro t ht
    have hle : t ≤ now := (List.pairwise_append.mp hsorted).2.2 t ht now (List.mem_singleton_self _)
    exact sub_le_sub_right hle window
  rw [push, dropWhile_eq_filter hqueue, List.filter_append, List.filter_append,
    h.agrees _ hpast]

/-- The queue goes on as its history does. -/
theorem Tracks.push (h : Tracks window times queue) [IsOrderedAddMonoid α]
    (hsorted : (times ++ [now]).Pairwise (· ≤ ·)) :
    Tracks window (times ++ [now]) (push window queue now) := by
  constructor
  · rw [h.push_eq hsorted]
    exact List.filter_sublist
  · intro cutoff hcutoff
    have hnow : now - window ≤ cutoff :=
      hcutoff now (List.mem_append_right _ (List.mem_singleton_self _))
    rw [h.push_eq hsorted, List.filter_filter]
    apply List.filter_congr
    intro t _
    by_cases ht : cutoff ≤ t
    · simp [ht, hnow.trans ht]
    · simp [ht]

/-- A queue that has taken the instants of a history in order. -/
theorem tracks_foldl (window : α) [IsOrderedAddMonoid α] (hsorted : times.Pairwise (· ≤ ·)) :
    Tracks window times (times.foldl (SlidingWindow.push window) []) := by
  induction times using List.reverseRecOn with
  | nil => exact tracks_nil window
  | append_singleton times now ih =>
      rw [List.foldl_append]
      exact (ih (hsorted.sublist (List.sublist_append_left _ _))).push hsorted

end SlidingWindow
