import ServeInfer.Lib.SlidingWindow
import ServeInfer.Supervisor.CrashLog

/-!
# The breaker's window

The breaker keeps a queue of crashes for every key. With a clock that does not go
back, a call answers whether the third crash of its key is in the last minute, however
the calls for the keys are interleaved.
-/

namespace ServeInfer.Supervisor

/-- A call of `registerCrash`, with the reading it takes of the clock. -/
structure CrashCall where
  key : ℤ
  now : ℤ
  deriving DecidableEq, Repr

namespace CircuitBreaker

/-- The breaker after the calls. -/
def after (calls : List CrashCall) : CircuitBreaker :=
  calls.foldl (fun breaker c => (breaker.registerCrash c.key c.now).2) ∅

/-- When the crashes of a key were registered. -/
def timesOf (key : ℤ) (calls : List CrashCall) : List ℤ :=
  (calls.filter fun c => c.key = key).map CrashCall.now

variable {calls : List CrashCall} {key now : ℤ}

/-- Both results of a call, by the queue of its key. -/
theorem registerCrash_eq (breaker : CircuitBreaker) (key now : ℤ) :
    breaker.registerCrash key now =
      (decide (crashThreshold ≤
        (SlidingWindow.push window ((breaker.get? key).getD []) now).length),
        breaker.set key (SlidingWindow.push window ((breaker.get? key).getD []) now)) := rfl

/-- Only a key's own crashes go into its queue. -/
theorem queue_after (key : ℤ) (calls : List CrashCall) :
    ((after calls).get? key).getD [] =
      (timesOf key calls).foldl (SlidingWindow.push window) [] := by
  induction calls using List.reverseRecOn with
  | nil => rfl
  | append_singleton calls c ih =>
      rw [after, List.foldl_append, List.foldl_cons, List.foldl_nil, ← after, registerCrash_eq,
        timesOf, List.filter_append, List.map_append, List.foldl_append, ← timesOf]
      by_cases hkey : c.key = key
      · subst hkey
        rw [OrderedMap.get?_set_self, Option.getD_some, ih, List.filter_cons_of_pos (by simp)]
        rfl
      · rw [OrderedMap.get?_set_of_ne _ _ hkey, ih, List.filter_cons_of_neg (by simpa using hkey)]
        rfl

theorem timesOf_concat (calls : List CrashCall) (key now : ℤ) :
    timesOf key (calls ++ [CrashCall.mk key now]) = timesOf key calls ++ [now] := by
  rw [timesOf, List.filter_append, List.map_append, List.filter_cons_of_pos (by simp)]
  rfl

theorem timesOf_filter (key : ℤ) (calls : List CrashCall) :
    timesOf key (calls.filter fun c => c.key = key) = timesOf key calls := by
  rw [timesOf, List.filter_filter]
  simp only [Bool.and_self, timesOf]

/-- The crashes of a key in a window that ends now. -/
theorem length_filter_timesOf (cutoff key : ℤ) (calls : List CrashCall) :
    ((timesOf key calls).filter fun t => cutoff ≤ t).length =
      calls.countP fun c => c.key = key ∧ cutoff ≤ c.now := by
  rw [timesOf, List.filter_map, List.length_map, ← List.countP_eq_length_filter,
    List.countP_filter]
  apply List.countP_congr
  intro c _
  simp [and_comm]

/-- Each call answers whether, itself included, at least three crashes of its key were registered
in the last minute, and what was registered for other keys makes no difference. -/
theorem crash_window
    (hsorted : ((calls ++ [CrashCall.mk key now]).map CrashCall.now).Pairwise (· ≤ ·)) :
    (((after calls).registerCrash key now).1 = true ↔
      3 ≤ (calls ++ [CrashCall.mk key now]).countP fun c => c.key = key ∧ now - window ≤ c.now) ∧
    ((after calls).registerCrash key now).1 =
      ((after (calls.filter fun c => c.key = key)).registerCrash key now).1 := by
  have htimes : (timesOf key calls ++ [now]).Pairwise (· ≤ ·) := by
    rw [← timesOf_concat]
    exact hsorted.sublist (List.filter_sublist.map CrashCall.now)
  have hbefore : (timesOf key calls).Pairwise (· ≤ ·) :=
    htimes.sublist (List.sublist_append_left _ _)
  constructor
  · rw [registerCrash_eq, decide_eq_true_eq, queue_after,
      (SlidingWindow.tracks_foldl window hbefore).push_eq htimes, ← timesOf_concat,
      length_filter_timesOf, crashThreshold]
  · rw [registerCrash_eq, registerCrash_eq, queue_after, queue_after, timesOf_filter]

/-- Two processes crash in turn; the third crash of the first one opens its breaker. -/
theorem crash_window_inTurn :
    ((after [⟨0, 0⟩, ⟨1, 1000000000⟩, ⟨0, 20000000000⟩, ⟨1, 50000000000⟩]).registerCrash 0
        60000000000).1 = true ∧
      ((after [⟨0, 0⟩, ⟨1, 1000000000⟩, ⟨0, 20000000000⟩, ⟨1, 50000000000⟩]).registerCrash 0
        60000000001).1 = false := by
  constructor
  · apply (crash_window (by decide)).1.mpr
    decide
  · apply Bool.eq_false_iff.mpr
    intro hopen
    have hcount := (crash_window (by decide)).1.mp hopen
    revert hcount
    decide

end CircuitBreaker

end ServeInfer.Supervisor
