import ServeInfer.Supervisor.Liveness

/-!
# The id of a heartbeat

The id is read as a `long long`, which stops at its bounds, and then cast to an `int`,
which keeps the low bits. So the id that is stored is the one that was written exactly
where that fits into an `int`.
-/

namespace ServeInfer.Supervisor

variable {line : List Char} {n : ℤ}

/-- The line has the mark of a heartbeat. -/
def IsHeartbeat (line : List Char) : Prop :=
  Text.contains line "\"type\":\"heartbeat\"".toList = true

/-- The integer behind the first key of the worker's id. -/
def writtenId (line : List Char) : Option ℤ :=
  (Text.afterFirst (fieldNeedle "workerId".toList) line).bind Text.written

/-- Where the line is taken as a heartbeat, the id that is stored is the one that was written, and
it is not negative. -/
def Decoded (line : List Char) : Prop :=
  ∀ workerId busyMs, parseHeartbeat line = some (workerId, busyMs) →
    0 ≤ workerId ∧ writtenId line = some workerId

theorem extractNumber_eq (line key : List Char) :
    extractNumber line key =
      ((Text.afterFirst (fieldNeedle key) line).bind Text.written).map Text.saturate := by
  unfold extractNumber
  cases Text.afterFirst (fieldNeedle key) line with
  | none => rfl
  | some rest => exact Text.strtoll_eq rest

/-- Saturation keeps the sign. -/
theorem saturate_neg_iff : Text.saturate n < 0 ↔ n < 0 := by
  unfold Text.saturate
  omega

theorem castInt_lt (n : ℤ) : castInt n < 2 ^ 31 := by
  unfold castInt
  rw [Int.bmod_def]
  omega

/-- The saturation and the cast leave exactly what fits into an `int`. -/
theorem castInt_saturate_iff (h0 : 0 ≤ n) : castInt (Text.saturate n) = n ↔ n < 2 ^ 31 := by
  constructor
  · intro h
    rw [← h]
    exact castInt_lt _
  · intro hlt
    have hsame : Text.saturate n = n := by
      unfold Text.saturate
      omega
    rw [hsame]
    exact castInt_of_lt h0 hlt

/-- The reading of a line by the integer that was written. -/
theorem parseHeartbeat_eq (h : IsHeartbeat line) :
    parseHeartbeat line = (writtenId line).bind fun n =>
      if n < 0 then none
      else some (castInt (Text.saturate n), (extractNumber line "busyMs".toList).getD 0) := by
  have hcontains : Text.contains line "\"type\":\"heartbeat\"".toList = true := h
  unfold parseHeartbeat
  rw [if_pos hcontains, extractNumber_eq line "workerId".toList, ← writtenId]
  cases writtenId line with
  | none => rfl
  | some n =>
      rw [Option.map_some, Option.bind_some]
      by_cases hneg : n < 0
      · exact (if_pos (saturate_neg_iff.mpr hneg)).trans (if_pos hneg).symm
      · exact (if_neg fun h => hneg (saturate_neg_iff.mp h)).trans (if_neg hneg).symm

theorem decoded_iff (line : List Char) :
    Decoded line ↔ (IsHeartbeat line → ∀ n, writtenId line = some n → n < 2 ^ 31) := by
  by_cases hline : IsHeartbeat line
  · rw [Decoded, parseHeartbeat_eq hline]
    cases hid : writtenId line with
    | none =>
        refine iff_of_true ?_ ?_
        · intro workerId busyMs h
          cases h
        · intro _ n h
          cases h
    | some n =>
        simp only [Option.bind_some, Option.some.injEq, forall_eq', forall_const, hline]
        by_cases hneg : n < 0
        · rw [if_pos hneg]
          refine iff_of_true ?_ ?_
          · intro workerId busyMs h
            cases h
          · omega
        · rw [if_neg hneg]
          constructor
          · intro h
            obtain ⟨-, hsame⟩ := h _ _ rfl
            exact (castInt_saturate_iff (not_lt.mp hneg)).mp hsame.symm
          · intro hlt workerId busyMs h
            have hsame := (castInt_saturate_iff (not_lt.mp hneg)).mpr hlt
            obtain ⟨rfl, -⟩ := Prod.mk.inj (Option.some.inj h)
            rw [hsame]
            exact ⟨not_lt.mp hneg, rfl⟩
  · have hnone : parseHeartbeat line = none := if_neg hline
    refine iff_of_true ?_ fun h => absurd h hline
    intro workerId busyMs h
    rw [hnone] at h
    cases h

/-- A line is decoded right exactly when it is no heartbeat or what is written as its id, if
anything, is below `2 ^ 31`. What a worker sends comes back as it was. -/
theorem heartbeat_decoded_iff (line : List Char) :
    (Decoded line ↔ (IsHeartbeat line → ∀ n, writtenId line = some n → n < 2 ^ 31)) ∧
      ∀ (workerId : ℤ) (busyMs : Option ℤ) (device : String), 0 ≤ workerId → workerId < 2 ^ 31 →
        device ∈ knownBackends → -2 ^ 63 ≤ busyMs.getD 0 → busyMs.getD 0 < 2 ^ 63 →
          parseHeartbeat (heartbeatLine workerId busyMs device) =
            some (workerId, busyMs.getD 0) :=
  ⟨decoded_iff line,
    fun _ _ _ h0 h hdev hlo hhi => parseHeartbeat_heartbeatLine h0 h hdev hlo hhi⟩

/-- Worker 3 reports a request that has run for a while. -/
theorem heartbeat_decoded_iff_busy :
    parseHeartbeat (heartbeatLine 3 (some 4210) "cuda") = some (3, 4210) :=
  (heartbeat_decoded_iff (heartbeatLine 3 (some 4210) "cuda")).2 3 (some 4210) "cuda" (by decide)
    (by decide) (by decide) (by decide) (by decide)

/-- An id of `2 ^ 32` is stored as worker 0. -/
theorem not_heartbeat_decoded : ¬ ∀ line, Decoded line := by
  intro h
  have hdecoded := h "\x7b\"type\":\"heartbeat\",\"workerId\":4294967296\x7d".toList 0 0 (by decide)
  have hwritten := hdecoded.2
  revert hwritten
  decide

end ServeInfer.Supervisor
