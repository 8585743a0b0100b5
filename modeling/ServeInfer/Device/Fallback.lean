import ServeInfer.Device.LadderRuns
import ServeInfer.Device.Narrowing

/-!
# Falling back

`reportFault` is there to move down the ladder, but it picks the next tier with
`select`, which starts at the top. A usable tier at or above the faulted one stops
the scan, and `reportFault` then stays where it was.
-/

namespace ServeInfer.Device

/-- Looked at one after another, from these counts of readings on, each of the tiers is
session-fatal, in quarantine, or answers its probe otherwise than available. -/
def AllRefuse (env : Env) (interval : ℤ) : List DeviceTier → ℕ → ℕ → Prop
  | [], _, _ => True
  | tier :: rest, reads, probes =>
      if tier.sessionFatal then AllRefuse env interval rest reads probes
      else if env.clock reads < tier.quarantinedUntil then
        AllRefuse env interval rest (reads + 1) probes
      else if interval > 0 ∧ tier.probeCacheValid = true ∧
          env.clock (reads + 1) - tier.probeCachedAt < interval then
        tier.cachedProbe ≠ .available ∧ AllRefuse env interval rest (reads + 2) probes
      else
        env.probe probes tier.name ≠ .available ∧
          AllRefuse env interval rest (reads + 2) (probes + 1)

namespace Ladder

variable {env : Env} {l s : Ladder} {i : ℕ} {tier : DeviceTier} {fault : DeviceFault}
  {detail : String} {skip : DeviceTier → Bool}

/-- A usable tier stands below the active one. -/
def StandsBelow (env : Env) (l : Ladder) : Prop :=
  ∃ (c : ℕ) (tier : DeviceTier), l.activeIndex < c ∧ l.tiers[c]? = some tier ∧ l.Standing env tier

/-- The tiers at or above the active one, the faulted one with its new quarantine, refuse. -/
def AboveRefuse (env : Env) (l : Ladder) (fault : DeviceFault) (detail : String) : Prop :=
  AllRefuse env l.probeInterval ((l.marked env fault detail).tiers.take (l.activeIndex + 1))
    (l.reads + 1) l.probes

/-- With a usable tier below, a fault moves the ladder to a lower tier. -/
def FallbackComplete (env : Env) (l : Ladder) (fault : DeviceFault) (detail : String) : Prop :=
  l.StandsBelow env →
    (l.reportFault env fault detail).1 = true ∧
      l.activeIndex < (l.reportFault env fault detail).2.activeIndex ∧
      (l.reportFault env fault detail).2.names[(l.reportFault env fault detail).2.activeIndex]? =
        some (l.reportFault env fault detail).2.active

/-- The scan of two stretches is the scan of the first, and of the second where that finds none. -/
theorem firstEligible_append (env : Env) (skip : DeviceTier → Bool) (xs ys : List DeviceTier)
    (i : ℕ) (l : Ladder) :
    firstEligible env skip i (xs ++ ys) l =
      match firstEligible env skip i xs l with
      | (some found, s) => (some found, s)
      | (none, s) => firstEligible env skip (i + xs.length) ys s := by
  induction xs generalizing i l with
  | nil => rfl
  | cons tier rest ih =>
      rw [List.cons_append, firstEligible, firstEligible, List.length_cons,
        Nat.add_comm rest.length 1, ← Nat.add_assoc]
      cases hskip : skip tier with
      | true =>
          simp only [if_true]
          exact ih (i + 1) l
      | false =>
          cases hok : (l.eligible env i tier).1 with
          | true => simp only [Bool.false_eq_true, if_false, if_true]
          | false =>
              simp only [Bool.false_eq_true, if_false]
              exact ih (i + 1) _

/-- The scan of the ladder finds none of a stretch exactly when each of it refuses. -/
theorem firstEligible_eq_none_iff (tiers : List DeviceTier) (i : ℕ) (l : Ladder) :
    (firstEligible env skipNone i tiers l).1 = none ↔
      AllRefuse env l.probeInterval tiers l.reads l.probes := by
  induction tiers generalizing i l with
  | nil => exact iff_of_true rfl trivial
  | cons tier rest ih =>
      have hlook := look_eligible env l i tier
      have hcons : firstEligible env skipNone i (tier :: rest) l =
          if (l.eligible env i tier).1 then (some (i, tier), (l.eligible env i tier).2)
          else firstEligible env skipNone (i + 1) rest (l.eligible env i tier).2 := by
        rw [firstEligible, skipNone, if_neg Bool.false_ne_true]
      rw [hcons, AllRefuse]
      generalize l.eligibleAsked env tier = asked at hlook
      generalize (l.eligible env i tier).1 = ok at hlook ⊢
      generalize (l.eligible env i tier).2 = s at hlook ⊢
      cases hlook with
      | fatal hfatal =>
          simp only [hfatal, Bool.false_eq_true, if_false, if_true]
          exact ih (i + 1) l
      | benched hsession hclock =>
          simp only [hsession, hclock, Bool.false_eq_true, if_false, if_true]
          exact ih (i + 1) l.tick
      | cached hsession hclock hfresh =>
          simp only [hsession, Int.not_lt.mpr hclock, hfresh, Bool.false_eq_true, if_false]
          by_cases havail : tier.cachedProbe = .available
          · simp [havail]
          · simp only [havail, decide_false, Bool.false_eq_true, if_false, ne_eq, not_false_eq_true,
              true_and]
            exact ih (i + 1) l.tick.tick
      | probed hsession hclock hstale =>
          simp only [hsession, Int.not_lt.mpr hclock, hstale, Bool.false_eq_true, if_false]
          by_cases havail : env.probe l.probes tier.name = .available
          · simp [havail]
          · simp only [havail, decide_false, Bool.false_eq_true, if_false, ne_eq, not_false_eq_true,
              true_and]
            exact ih (i + 1) _

theorem firstEligible_bounds {tiers : List DeviceTier} {j : ℕ} {next : DeviceTier}
    (h : (firstEligible env skip i tiers l).1 = some (j, next)) : i ≤ j ∧ j < i + tiers.length := by
  induction tiers generalizing i l with
  | nil => cases h
  | cons tier rest ih =>
      rw [List.length_cons]
      rw [firstEligible] at h
      split at h
      · have hrest := ih h
        omega
      · split at h
        · cases h
          omega
        · have hrest := ih h
          omega

/-- The tiers at or above the active one refuse exactly when the whole scan, if it finds any, finds
one below. -/
theorem aboveRefuse_iff {found : Option (ℕ × DeviceTier)}
    (hfirst : (firstEligible env skipNone 0 (l.marked env fault detail).tiers
      (l.marked env fault detail)).1 = found) :
    l.AboveRefuse env fault detail ↔ ∀ j next, found = some (j, next) → l.activeIndex < j := by
  have hsplit := firstEligible_append env skipNone
    ((l.marked env fault detail).tiers.take (l.activeIndex + 1))
    ((l.marked env fault detail).tiers.drop (l.activeIndex + 1)) 0 (l.marked env fault detail)
  rw [List.take_append_drop] at hsplit
  have habove : l.AboveRefuse env fault detail ↔ (firstEligible env skipNone 0
      ((l.marked env fault detail).tiers.take (l.activeIndex + 1))
      (l.marked env fault detail)).1 = none :=
    (firstEligible_eq_none_iff ((l.marked env fault detail).tiers.take (l.activeIndex + 1)) 0
      (l.marked env fault detail)).symm
  rw [habove]
  cases hupper : firstEligible env skipNone 0
      ((l.marked env fault detail).tiers.take (l.activeIndex + 1))
      (l.marked env fault detail) with
  | mk upper s =>
      rw [hupper] at hsplit
      cases upper with
      | some upper =>
          have hbound := (firstEligible_bounds (congrArg Prod.fst hupper)).2
          rw [List.length_take] at hbound
          rw [hsplit] at hfirst
          refine iff_of_false (Option.some_ne_none upper) ?_
          intro hbelow
          have hlt := hbelow upper.1 upper.2 hfirst.symm
          omega
      | none =>
          refine iff_of_true rfl ?_
          intro j next hfound
          rw [hsplit, hfound] at hfirst
          have hbound := firstEligible_bounds hfirst
          rw [List.length_take, List.length_drop] at hbound
          omega

/-- `reportFault` moves down exactly when a usable tier stands below and all above refuse. -/
theorem fallbackComplete_iff (hclock : Monotone env.clock) (hactive : l.active.isEmpty = false)
    (hget : l.tiers[l.activeIndex]? = some tier) :
    l.FallbackComplete env fault detail ↔ ¬ l.StandsBelow env ∨ l.AboveRefuse env fault detail := by
  rcases reportFault_cases env l fault detail with
    ⟨hquiet, -⟩ | ⟨_, -, -, found, s, hfirst, hscan, hcases⟩
  · rcases hquiet with hempty | hnone
    · rw [hactive] at hempty
      cases hempty
    · rw [hget] at hnone
      cases hnone
  · rw [aboveRefuse_iff (congrArg Prod.fst hfirst), ← imp_iff_not_or]
    refine imp_congr_right fun hbelow => ?_
    obtain ⟨c, stand, hc, hget', hstand⟩ := hbelow
    have hmarked : (l.marked env fault detail).tiers[c]? = some stand := by
      rw [marked_tiers_of_ne l (Nat.ne_of_lt hc)]
      exact hget'
    have hstand' : (l.marked env fault detail).Standing env stand :=
      hstand.of_looked hclock ⟨Nat.le_succ _, le_rfl, rfl, names_setTier l.tick _ fun _ => rfl⟩
    obtain ⟨_, _, -, -, hok, -⟩ := selectFrom_of_standing hclock hmarked hstand' 0
    rw [selectFrom_eq, hfirst] at hok
    rcases hcases with ⟨j, next, rfl, hj, heq⟩ | ⟨j, next, rfl, hj, heq⟩ | ⟨rfl, heq⟩
    · refine iff_of_true ?_ ?_
      · rw [heq, activate_eq]
        refine ⟨rfl, hj, ?_⟩
        have hnext := (hscan.passed j next rfl).2.2.1
        have hnames : s.names[j]? = some next.name := by
          rw [hscan.looks.names, names, List.getElem?_map, hnext]
          rfl
        exact hnames
      · intro j' next' hfound
        cases hfound
        exact hj
    · refine iff_of_false ?_ ?_
      · rw [heq]
        rintro ⟨htrue, -⟩
        cases htrue
      · intro hall
        exact absurd (hall j next rfl) (Nat.not_lt.mpr hj)
    · cases hok

/-- In every reachable state with an active tier, a fault with a usable tier below moves the ladder
down exactly when every tier at or above the active one, the faulted one included, refuses. -/
theorem fallback_complete_iff (env : Env) (hclock : Monotone env.clock) (order : List String)
    (quarantineMs probeIntervalMs : ℤ) (actions : List LadderAction) (l : Ladder)
    (hexec : Machine.exec (Ladder.step env) (.ofOrder order quarantineMs probeIntervalMs) actions =
      some l)
    (hactive : l.active.isEmpty = false) (fault : DeviceFault) (detail : String) :
    l.FallbackComplete env fault detail ↔
      ¬ l.StandsBelow env ∨ l.AboveRefuse env fault detail := by
  obtain ⟨tier, hget, -⟩ := (seated_of_exec hexec).get hactive
  exact fallbackComplete_iff hclock hactive hget

/-- A clock that moves past the first quarantine during the request. -/
def lateClock : Env where
  clock n := if n < 6 then 0 else 60000 * ticksPerMs
  probe _ _ := .available

theorem lateClock_mono : Monotone lateClock.clock := by
  intro m n hmn
  dsimp only [lateClock]
  split
  · split
    · exact le_rfl
    · decide
  · rw [if_neg (by omega)]

/-- The ladder on vulkan, after cuda has faulted. -/
def secondTier : Ladder :=
  ((Machine.exec (Ladder.step lateClock) (.ofOrder ["cuda", "vulkan", "cpu"] 60000 0)
    [.select, .reportFault .runtimeError "decode failed"]).getD (.ofOrder [] 0 0))

theorem secondTier_reached :
    Machine.exec (Ladder.step lateClock) (.ofOrder ["cuda", "vulkan", "cpu"] 60000 0)
      [.select, .reportFault .runtimeError "decode failed"] = some secondTier := by
  decide

theorem secondTier_complete_iff :
    secondTier.FallbackComplete lateClock .runtimeError "" ↔
      ¬ secondTier.StandsBelow lateClock ∨ secondTier.AboveRefuse lateClock .runtimeError "" :=
  fallback_complete_iff lateClock lateClock_mono ["cuda", "vulkan", "cpu"] 60000 0
    [.select, .reportFault .runtimeError "decode failed"] secondTier secondTier_reached
    (by decide) .runtimeError ""

/-- Vulkan faults as cuda's quarantine ends: the scan stops at cuda, and the ladder stays on vulkan
with the cpu tier standing below. -/
theorem usable_tier_above_blocks :
    ¬ ∀ (env : Env), Monotone env.clock → ∀ (order : List String) (quarantineMs probeIntervalMs : ℤ)
      (actions : List LadderAction) (l : Ladder),
      Machine.exec (Ladder.step env) (.ofOrder order quarantineMs probeIntervalMs) actions =
        some l →
      l.active.isEmpty = false → ∀ fault detail, l.FallbackComplete env fault detail := by
  intro hall
  have hcomplete := hall lateClock lateClock_mono ["cuda", "vulkan", "cpu"] 60000 0
    [.select, .reportFault .runtimeError "decode failed"] secondTier secondTier_reached
    (by decide) .runtimeError ""
  have hget : secondTier.tiers[2]? = some { name := "cpu" } := by decide
  have hstand : secondTier.Standing lateClock { name := "cpu" } :=
    ⟨rfl, by decide, fun _ h => absurd h (by decide), fun _ _ => rfl⟩
  have hfell := (hcomplete ⟨2, _, by decide, hget, hstand⟩).1
  exact absurd hfell (by decide)

end Ladder

end ServeInfer.Device
