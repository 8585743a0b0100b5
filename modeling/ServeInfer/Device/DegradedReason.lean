import ServeInfer.Device.LadderRuns

/-!
# Why a worker is degraded

The ladder writes its reason where a fault takes it down, and clears it where a
scan stops at its baseline or above. The reason then blames a faulted tier above
the active one, unless a call moves below the baseline with no fault to blame,
moves to the blamed tier, or undoes the move for which the reason was cleared.
-/

namespace ServeInfer.Device

/-- What a tier that has faulted is blamed for. -/
def DeviceTier.charge (tier : DeviceTier) : Option String :=
  if tier.consecutiveFaults = 0 then none else some (tier.name ++ ":" ++ tier.lastFault.name)

namespace Ladder

def charges (l : Ladder) : List (Option String) := l.tiers.map DeviceTier.charge

/-- The reason names the fault of a tier above the index. -/
def Blames (l : Ladder) (n : ℕ) : Prop :=
  ∃ i, i < n ∧ l.charges[i]? = some (some l.degradedReason)

instance (l : Ladder) (n : ℕ) : Decidable (l.Blames n) :=
  inferInstanceAs (Decidable (∃ i, i < n ∧ l.charges[i]? = some (some l.degradedReason)))

/-- There is a reason exactly where the ladder is degraded, and it names the fault of a tier above
the active one. -/
structure Explained (l : Ladder) : Prop where
  given : l.degradedReason ≠ "" ↔ l.degraded = true
  blames : l.degraded = true → l.Blames l.activeIndex

section Scans

variable (env : Env)

/-- The index at which `select` stops. -/
def selectStops (l : Ladder) : Option ℕ :=
  (firstEligible env skipNone 0 l.tiers l).1.map Prod.fst

/-- The index at which `reportFault` stops. -/
def reportFaultStops (l : Ladder) (fault : DeviceFault) (detail : String) : Option ℕ :=
  match l.active.isEmpty, l.tiers[l.activeIndex]? with
  | false, some _ => (l.marked env fault detail).selectStops env
  | _, _ => none

/-- The index at which `recoverEligibleTier` stops. -/
def recoverStops (l : Ladder) : Option ℕ :=
  if l.active.isEmpty || l.activeIndex = 0 then none
  else (firstEligible env skipNeverFaulted 0 (l.tiers.take l.activeIndex) l).1.map Prod.fst

/-- A call that stops below the baseline without a fault has a tier above to blame; one that
reports a fault below the baseline stops below the baseline, and so does one that falls from
above it. -/
def Explainable (l : Ladder) : LadderAction → Prop
  | .select => ∀ j, l.selectStops env = some j → l.baselineSet = true → l.baselineIndex < j →
      l.Blames j
  | .reportFault fault detail => ∀ j, l.reportFaultStops env fault detail = some j →
      l.baselineIndex < l.activeIndex ∨ l.activeIndex < l.baselineIndex ∧ l.activeIndex < j →
        l.baselineIndex < j
  | .recoverEligibleTier => ∀ j, l.recoverStops env = some j → l.baselineIndex < j → l.Blames j
  | _ => True

end Scans

variable {env : Env} {l l' s : Ladder} {a : LadderAction} {i j n : ℕ} {tier : DeviceTier}
  {fault : DeviceFault} {detail : String} {asked : List String}

/-- Before there is a baseline no tier is active. -/
def Based (l : Ladder) : Prop := l.baselineSet = false → l.active = "" ∧ l.activeIndex = 0

theorem charge_ne_empty {reason : String} (h : tier.charge = some reason) : reason ≠ "" := by
  obtain ⟨-, heq⟩ := Option.ite_none_left_eq_some.mp h
  rintro rfl
  have hlen := congrArg String.length (Option.some.inj heq)
  simp [String.length_append] at hlen

theorem Blames.ne_empty (h : l.Blames n) : l.degradedReason ≠ "" := by
  obtain ⟨i, -, hi⟩ := h
  rw [charges, List.getElem?_map] at hi
  obtain ⟨tier, -, htier⟩ := Option.map_eq_some_iff.mp hi
  exact charge_ne_empty htier

/-- A degraded ladder is explained by what its reason blames. -/
theorem explained_of_lt (h : l.baselineIndex < l.activeIndex) :
    l.Explained ↔ l.Blames l.activeIndex := by
  have hdegraded : l.degraded = true := decide_eq_true h
  constructor
  · exact fun hexplained => hexplained.blames hdegraded
  · exact fun hblames => ⟨iff_of_true hblames.ne_empty hdegraded, fun _ => hblames⟩

/-- A ladder that is not degraded is explained by no reason. -/
theorem explained_of_le (h : l.activeIndex ≤ l.baselineIndex) :
    l.Explained ↔ l.degradedReason = "" := by
  have hdegraded : ¬ l.degraded = true := fun hd => absurd (of_decide_eq_true hd) (Nat.not_lt.mpr h)
  constructor
  · intro hexplained
    by_contra hreason
    exact hdegraded (hexplained.given.mp hreason)
  · exact fun hreason => ⟨iff_of_false (not_not.mpr hreason) hdegraded, fun hd => absurd hd hdegraded⟩

theorem blames_congr (hcharges : ∀ i, i < n → l'.charges[i]? = l.charges[i]?)
    (hreason : l'.degradedReason = l.degradedReason) : l'.Blames n ↔ l.Blames n := by
  rw [Blames, Blames, hreason]
  apply exists_congr
  intro i
  apply and_congr_right
  intro hi
  rw [hcharges i hi]

/-- The tiers from the active one on have no say. -/
theorem explained_congr (hcharges : ∀ i, i < l.activeIndex → l'.charges[i]? = l.charges[i]?)
    (hindex : l'.activeIndex = l.activeIndex) (hbaseline : l'.baselineIndex = l.baselineIndex)
    (hreason : l'.degradedReason = l.degradedReason) : l'.Explained ↔ l.Explained := by
  obtain hlt | hle := Nat.lt_or_ge l.baselineIndex l.activeIndex
  · rw [explained_of_lt hlt, explained_of_lt (hindex ▸ hbaseline ▸ hlt), hindex,
      blames_congr hcharges hreason]
  · rw [explained_of_le hle, explained_of_le (hindex ▸ hbaseline ▸ hle), hreason]

/-- Looks blame nobody. -/
theorem Looks.charges (h : Looks env l asked l') : l'.charges = l.charges := by
  have hgates := congrArg (List.map DeviceTier.charge) h.gates
  rw [List.map_map, List.map_map] at hgates
  exact hgates

theorem Looks.explained (h : Looks env l asked l') : l'.Explained ↔ l.Explained := by
  have hrest := h.rest
  refine explained_congr (fun i _ => by rw [h.charges]) ?_ ?_ ?_ <;> rw [hrest]

/-- A mark changes what its own tier is blamed for, and nothing else. -/
theorem charges_marked (hk : l.activeIndex ≠ i) : (l.marked env fault detail).charges[i]? =
    l.charges[i]? := by
  rw [Ladder.charges, Ladder.charges, List.getElem?_map, List.getElem?_map,
    marked_tiers_of_ne l hk]

theorem charges_marked_self (hget : l.tiers[l.activeIndex]? = some tier) :
    (l.marked env fault detail).charges[l.activeIndex]? =
      some (some (tier.name ++ ":" ++ fault.name)) := by
  rw [Ladder.charges, List.getElem?_map, marked_tiers_self, hget]
  exact congrArg some (if_neg (Nat.succ_ne_zero _))

/-- Where `recoverEligibleTier` stops. -/
theorem explained_restore :
    (l.restore j tier).Explained ↔ (l.baselineIndex < j → l.Blames j) := by
  rw [restore_eq]
  obtain hlt | hle := Nat.lt_or_ge l.baselineIndex j
  · rw [explained_of_lt hlt, if_neg (Nat.not_le.mpr hlt)]
    exact ⟨fun h _ => h, fun h => h hlt⟩
  · rw [explained_of_le hle, if_pos hle]
    exact iff_of_true rfl fun hlt => absurd hle (Nat.not_le.mpr hlt)

/-- On a ladder that has a baseline, `select` stops as `recoverEligibleTier` does. -/
theorem activate_of_set (hset : l.baselineSet = true) : l.activate j tier = l.restore j tier := by
  simp [activate, restore, hset]

/-- Where `select` stops at a tier of a ladder that has a baseline. -/
theorem explained_activate (hset : l.baselineSet = true) :
    (l.activate j tier).Explained ↔ (l.baselineIndex < j → l.Blames j) := by
  rw [activate_of_set hset]
  exact explained_restore

/-- The first tier that `select` finds is the baseline. -/
theorem explained_activate_first (hset : l.baselineSet = false) :
    (l.activate j tier).Explained := by
  rw [activate_eq]
  simp only [hset, Bool.false_eq_true, if_false]
  rw [explained_of_le le_rfl]
  exact if_pos le_rfl

theorem explained_select (h : l.Explained) :
    (l.select env).2.Explained ↔ l.Explainable env .select := by
  rcases select_cases env l with ⟨j, tier, s, hfirst, hscan, heq⟩ | ⟨s, hfirst, hscan, heq⟩
  · have hstops : l.selectStops env = some j := by rw [selectStops, hfirst]; rfl
    have hrest := hscan.looks.rest
    have hsame : s.Blames j ↔ l.Blames j := blames_congr (fun i _ => by rw [hscan.looks.charges])
      (by rw [hrest])
    have hsetsame : s.baselineSet = l.baselineSet := by rw [hrest]
    have hbasesame : s.baselineIndex = l.baselineIndex := by rw [hrest]
    rw [heq, Explainable, hstops]
    simp only [Option.some.injEq, forall_eq']
    cases hset : l.baselineSet with
    | false =>
        refine iff_of_true (explained_activate_first (hsetsame.trans hset)) fun hfalse => ?_
        cases hfalse
    | true =>
        rw [explained_activate (hsetsame.trans hset), hsame, hbasesame]
        exact ⟨fun h _ => h, fun h => h rfl⟩
  · have hstops : l.selectStops env = none := by rw [selectStops, hfirst]; rfl
    rw [heq, Explainable, hstops]
    refine iff_of_true ?_ fun j hj => by cases hj
    have hlost : ({ s with active := "" } : Ladder).Explained ↔ s.Explained :=
      explained_congr (fun _ _ => rfl) rfl rfl rfl
    exact hlost.mpr (hscan.looks.explained.mpr h)

theorem explained_recoverEligibleTier (h : l.Explained) :
    (l.recoverEligibleTier env).2.Explained ↔ l.Explainable env .recoverEligibleTier := by
  rw [Explainable]
  by_cases hquiet : (l.active.isEmpty || decide (l.activeIndex = 0)) = true
  · have hstops : l.recoverStops env = none := if_pos hquiet
    have hrecover : l.recoverEligibleTier env = (false, l) := if_pos hquiet
    rw [hstops, hrecover]
    exact iff_of_true h fun j hj => by cases hj
  · have hstops : l.recoverStops env =
        (firstEligible env skipNeverFaulted 0 (l.tiers.take l.activeIndex) l).1.map Prod.fst :=
      if_neg hquiet
    have hrecover : l.recoverEligibleTier env =
        recoverFrom env 0 (l.tiers.take l.activeIndex) l := if_neg hquiet
    have hscan := l.scan_recover env
    rw [hstops, hrecover, recoverFrom_eq]
    cases hfirst : firstEligible env skipNeverFaulted 0 (l.tiers.take l.activeIndex) l with
    | mk found s =>
        rw [hfirst] at hscan
        dsimp only at hscan
        cases found with
        | none => exact iff_of_true (hscan.looks.explained.mpr h) fun j hj => by cases hj
        | some found =>
            have hrest := hscan.looks.rest
            have hsame : s.Blames found.1 ↔ l.Blames found.1 :=
              blames_congr (fun i _ => by rw [hscan.looks.charges]) (by rw [hrest])
            have hbase : s.baselineIndex = l.baselineIndex := by rw [hrest]
            rw [Option.map_some]
            simp only [Option.some.injEq, forall_eq']
            rw [explained_restore, hsame, hbase]

/-- A fault that moves nothing and clears nothing. -/
theorem explained_stayed (h : l.Explained) (hlooks : Looks env (l.marked env fault detail) asked s)
    (hcharges : l'.charges = s.charges) (hindex : l'.activeIndex = l.activeIndex)
    (hbaseline : l'.baselineIndex = l.baselineIndex)
    (hreason : l'.degradedReason = l.degradedReason) : l'.Explained := by
  refine (explained_congr ?_ hindex hbaseline hreason).mpr h
  intro i hi
  rw [hcharges, hlooks.charges, charges_marked (Nat.ne_of_gt hi)]

theorem explained_reportFault (h : l.Explained) (hbased : l.Based) :
    (l.reportFault env fault detail).2.Explained ↔
      l.Explainable env (.reportFault fault detail) := by
  rw [Explainable]
  rcases reportFault_cases env l fault detail with
    ⟨hnone, heq, -⟩ | ⟨tier, hon, hget, found, s, hfirst, hscan, hcases⟩
  · have hstops : l.reportFaultStops env fault detail = none := by
      unfold reportFaultStops
      rcases hnone with hempty | hnone
      · rw [hempty]
      · rw [hnone]
        cases l.active.isEmpty <;> rfl
    rw [hstops, heq]
    exact iff_of_true h fun j hj => by cases hj
  · have hstops : l.reportFaultStops env fault detail = found.map Prod.fst := by
      unfold reportFaultStops
      rw [hon, hget]
      dsimp only
      rw [selectStops, hfirst]
    have hset : l.baselineSet = true := by
      by_contra hno
      rw [(hbased (Bool.eq_false_of_not_eq_true hno)).1] at hon
      cases hon
    have hrest := hscan.looks.rest
    have hsset : s.baselineSet = true := by rw [hrest]; exact hset
    have hsbase : s.baselineIndex = l.baselineIndex := by rw [hrest]; rfl
    have hsreason : s.degradedReason = l.degradedReason := by rw [hrest]; rfl
    rw [hstops]
    rcases hcases with ⟨j, next, rfl, hj, heq⟩ | ⟨j, next, rfl, hj, heq⟩ | ⟨rfl, heq⟩
    · rw [heq, Option.map_some, activate_eq]
      simp only [hsset, if_true, hsbase, Option.some.injEq, forall_eq']
      obtain hlt | hle := Nat.lt_or_ge l.baselineIndex j
      · refine iff_of_true ?_ fun _ => hlt
        rw [explained_of_lt hlt]
        refine ⟨l.activeIndex, hj, ?_⟩
        show s.charges[l.activeIndex]? = _
        rw [hscan.looks.charges, charges_marked_self hget]
      · rw [explained_of_le hle]
        have hcharge : (tier.faulted fault detail 0).charge =
            some (tier.name ++ ":" ++ fault.name) := if_neg (Nat.succ_ne_zero _)
        exact iff_of_false (charge_ne_empty hcharge) fun hall =>
          absurd (hall (.inr ⟨hj.trans_le hle, hj⟩)) (Nat.not_lt.mpr hle)
    · rw [heq, Option.map_some, activate_eq]
      simp only [hsset, if_true, hsbase, Option.some.injEq, forall_eq']
      obtain hlt | hle := Nat.lt_or_ge l.baselineIndex j
      · refine iff_of_true ?_ fun _ => hlt
        rw [if_neg (Nat.not_le.mpr hlt), hsreason]
        exact explained_stayed h hscan.looks rfl rfl rfl rfl
      · rw [if_pos hle]
        obtain hbelow | habove := Nat.lt_or_ge l.baselineIndex l.activeIndex
        · refine iff_of_false (fun hexplained => ?_) fun hall => ?_
          · exact (hexplained.blames (decide_eq_true hbelow)).ne_empty rfl
          · exact absurd (hall (.inl hbelow)) (Nat.not_lt.mpr hle)
        · refine iff_of_true ?_ ?_
          · apply (explained_of_le _).mpr
            · rfl
            · exact habove
          · rintro (hbelow | ⟨-, hfell⟩)
            · exact absurd hbelow (Nat.not_lt.mpr habove)
            · exact absurd hfell (Nat.not_lt.mpr hj)
    · rw [heq, Option.map_none]
      refine iff_of_true ?_ fun j hj => by cases hj
      exact explained_stayed h hscan.looks rfl rfl hsbase hsreason

theorem charges_beginSession (l : Ladder) : l.beginSession.charges = l.charges := by
  simp [charges, beginSession, Function.comp_def, DeviceTier.charge]

theorem charges_invalidateProbeCache (l : Ladder) : l.invalidateProbeCache.charges = l.charges := by
  simp [charges, invalidateProbeCache, Function.comp_def, DeviceTier.charge]

/-- A call keeps the ladder explained exactly where it is explainable. -/
theorem explained_step (h : l.Explained) (hbased : l.Based) (hs : l.step env a = some l') :
    l'.Explained ↔ l.Explainable env a := by
  cases a with
  | select =>
      obtain rfl := Option.some.inj hs
      exact explained_select h
  | reportFault fault detail =>
      obtain rfl := Option.some.inj hs
      exact explained_reportFault h hbased
  | recoverEligibleTier =>
      obtain rfl := Option.some.inj hs
      exact explained_recoverEligibleTier h
  | beginSession =>
      obtain rfl := Option.some.inj hs
      have hsame : l.beginSession.Explained ↔ l.Explained :=
        explained_congr (fun i _ => by rw [charges_beginSession]) rfl rfl rfl
      exact iff_of_true (hsame.mpr h) trivial
  | setProbe =>
      obtain rfl := Option.some.inj hs
      have hsame : l.invalidateProbeCache.Explained ↔ l.Explained :=
        explained_congr (fun i _ => by rw [charges_invalidateProbeCache]) rfl rfl rfl
      exact iff_of_true (hsame.mpr h) trivial
  | invalidateProbeCache =>
      obtain rfl := Option.some.inj hs
      have hsame : l.invalidateProbeCache.Explained ↔ l.Explained :=
        explained_congr (fun i _ => by rw [charges_invalidateProbeCache]) rfl rfl rfl
      exact iff_of_true (hsame.mpr h) trivial
  | healthCheck name =>
      obtain rfl := Option.some.inj hs
      exact iff_of_true ((looks_healthCheck l name).explained.mpr h) trivial
  | tierState i =>
      obtain rfl := Option.some.inj hs
      exact iff_of_true ((looks_tierState env l i).explained.mpr h) trivial
  | probeTierCached i =>
      obtain ⟨-, hs⟩ := Option.ite_none_right_eq_some.mp hs
      obtain rfl := Option.some.inj hs
      exact iff_of_true ((looks_probeAt l i).explained.mpr h) trivial
  | toJson =>
      obtain rfl := Option.some.inj hs
      exact iff_of_true ((looks_toJson l).explained.mpr h) trivial

theorem Based.looks (h : l.Based) (hlooks : Looks env l asked l') : l'.Based := by
  have hrest := hlooks.rest
  intro hset
  rw [hrest] at hset ⊢
  exact h hset

theorem based_of_set (h : l.baselineSet = true) : l.Based := by
  intro hset
  rw [h] at hset
  cases hset

/-- Only `select` gives a ladder its baseline and its first active tier. -/
theorem Based.step (h : l.Based) (hs : l.step env a = some l') : l'.Based := by
  cases a with
  | select =>
      obtain rfl := Option.some.inj hs
      rcases select_cases env l with ⟨j, tier, s, -, -, heq⟩ | ⟨s, -, hscan, heq⟩
      · rw [heq, activate_eq]
        exact based_of_set rfl
      · rw [heq]
        exact fun hset => ⟨rfl, (h.looks hscan.looks hset).2⟩
  | reportFault fault detail =>
      obtain rfl := Option.some.inj hs
      rcases reportFault_cases env l fault detail with
        ⟨-, heq, -⟩ | ⟨tier, hon, -, found, s, -, hscan, hcases⟩
      · rw [heq]
        exact h
      · have hset : s.baselineSet = true := by
          by_contra hno
          have hlset : l.baselineSet = false := by
            have hrest := hscan.looks.rest
            rw [hrest] at hno
            exact Bool.eq_false_of_not_eq_true hno
          rw [(h hlset).1] at hon
          cases hon
        rcases hcases with ⟨j, next, -, -, heq⟩ | ⟨j, next, -, -, heq⟩ | ⟨-, heq⟩
        · rw [heq, activate_eq]
          exact based_of_set rfl
        · rw [heq, activate_eq]
          exact based_of_set rfl
        · rw [heq]
          exact based_of_set hset
  | recoverEligibleTier =>
      obtain rfl := Option.some.inj hs
      rcases recover_cases env l with ⟨j, tier, s, hon, -, hscan, heq⟩ | ⟨s, hlooks, heq⟩
      · rw [heq, restore_eq]
        intro hset
        have hlset := (h.looks hscan.looks hset).1
        have hrest := hscan.looks.rest
        rw [hrest] at hlset
        rw [show l.active = "" from hlset] at hon
        cases hon
      · rw [heq]
        exact h.looks hlooks
  | beginSession =>
      obtain rfl := Option.some.inj hs
      exact h
  | setProbe =>
      obtain rfl := Option.some.inj hs
      exact h
  | invalidateProbeCache =>
      obtain rfl := Option.some.inj hs
      exact h
  | healthCheck name =>
      obtain rfl := Option.some.inj hs
      exact h
  | tierState i =>
      obtain rfl := Option.some.inj hs
      exact h.looks (looks_tierState env l i)
  | probeTierCached i =>
      obtain ⟨-, hs⟩ := Option.ite_none_right_eq_some.mp hs
      obtain rfl := Option.some.inj hs
      exact h.looks (looks_probeAt l i)
  | toJson =>
      obtain rfl := Option.some.inj hs
      exact h.looks (looks_toJson l)

/-- The ladder is explained all along exactly in the runs whose calls are all explainable. -/
theorem degradation_explained_iff {order : List String} {quarantineMs probeIntervalMs : ℤ}
    {actions : List LadderAction}
    (hexec : Machine.exec (Ladder.step env) (.ofOrder order quarantineMs probeIntervalMs) actions =
      some l) :
    Machine.Always (Ladder.step env) Explained (.ofOrder order quarantineMs probeIntervalMs)
        actions ↔
      Machine.Guarded (Ladder.step env) (Explainable env)
        (.ofOrder order quarantineMs probeIntervalMs) actions := by
  refine Machine.always_iff_guarded ?_ (fun (l : Ladder) (h : l.Explained ∧ l.Based) => h.1) ?_ ?_ hexec
  · exact ⟨(explained_of_le le_rfl).mpr rfl, fun _ => ⟨rfl, rfl⟩⟩
  · exact fun _ _ _ h hok hs => ⟨(explained_step h.1 h.2 hs).mpr hok, h.2.step hs⟩
  · exact fun _ _ _ h hbad hs hexplained => hbad ((explained_step h.1 h.2 hs).mp hexplained)

/-- Cuda faults, and then vulkan does, while no tier is ready to be used again. -/
def fallsTwice : List LadderAction :=
  [.select, .reportFault .runtimeError "", .reportFault .runtimeError ""]

/-- A clock that stands still, and a probe that finds every tier available. -/
def still : Env where
  clock _ := 0
  probe _ _ := .available

theorem degradation_explained_fallsTwice : ∃ l,
    Machine.exec (Ladder.step still) (.ofOrder ["cuda", "vulkan", "cpu"] 30000 0) fallsTwice =
        some l ∧
      l.degradedReason = "vulkan:runtime_error" ∧
      (Machine.Always (Ladder.step still) Explained (.ofOrder ["cuda", "vulkan", "cpu"] 30000 0)
          fallsTwice ↔
        Machine.Guarded (Ladder.step still) (Explainable still)
          (.ofOrder ["cuda", "vulkan", "cpu"] 30000 0) fallsTwice) := by
  have hrun : (Machine.exec (Ladder.step still) (.ofOrder ["cuda", "vulkan", "cpu"] 30000 0)
      fallsTwice).any (fun l => l.degradedReason = "vulkan:runtime_error") = true := by
    decide
  obtain ⟨l, hl, hreason⟩ := (Option.any_eq_true _ _).mp hrun
  exact ⟨l, hl, of_decide_eq_true hreason, degradation_explained_iff hl⟩

/-- A minute goes by between the first fault and the second. -/
def minuteLater : Env where
  clock n := if n < 6 then 0 else 60000 * ticksPerMs
  probe _ _ := .available

/-- Vulkan, which has taken over from cuda, faults where cuda is eligible again: the reason is gone,
and the ladder stays on vulkan. -/
theorem not_degradation_explained : ¬ ∀ (env : Env) (order : List String)
    (quarantineMs probeIntervalMs : ℤ) (actions : List LadderAction),
    Machine.Always (Ladder.step env) Explained (.ofOrder order quarantineMs probeIntervalMs)
      actions := by
  intro hall
  have hrun : (Machine.exec (Ladder.step minuteLater) (.ofOrder ["cuda", "vulkan", "cpu"] 30000 0)
      fallsTwice).any (fun l => l.degradedReason = "" ∧ l.degraded = true) = true := by
    decide
  obtain ⟨l, hl, hstate⟩ := (Option.any_eq_true _ _).mp hrun
  obtain ⟨hnone, hdegraded⟩ := of_decide_eq_true hstate
  exact ((hall minuteLater _ 30000 0 _).last hl).given.mpr hdegraded hnone

end Ladder

end ServeInfer.Device
