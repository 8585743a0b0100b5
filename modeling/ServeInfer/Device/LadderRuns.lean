import ServeInfer.Device.Looks
import ServeInfer.Lib.Machine

/-!
# Runs of the ladder

The public methods of the ladder as the actions of a machine, and what each of
them does to the active tier.
-/

namespace ServeInfer.Device

/-- The public methods; `setProbe` also changes what later probes answer, which the environment
says by their number. -/
inductive LadderAction
  | select
  | reportFault (fault : DeviceFault) (detail : String)
  | recoverEligibleTier
  | beginSession
  | setProbe
  | invalidateProbeCache
  | healthCheck (name : String)
  | tierState (i : ℕ)
  | probeTierCached (i : ℕ)
  | toJson
  deriving DecidableEq, Repr

namespace Ladder

variable (env : Env)

/-- The names `select` hands to the probe. -/
def selectAsked (l : Ladder) : List String := firstAsked env skipNone 0 l.tiers l

/-- The ladder in which `reportFault` calls `select`. -/
def marked (l : Ladder) (fault : DeviceFault) (detail : String) : Ladder :=
  l.tick.setTier l.activeIndex (·.faulted fault detail (env.clock l.reads + l.quarantine))

/-- The names `reportFault` hands to the probe. -/
def reportFaultAsked (l : Ladder) (fault : DeviceFault) (detail : String) : List String :=
  match l.active.isEmpty, l.tiers[l.activeIndex]? with
  | false, some _ => (l.marked env fault detail).selectAsked env
  | _, _ => []

/-- The names `recoverEligibleTier` hands to the probe. -/
def recoverAsked (l : Ladder) : List String :=
  if l.active.isEmpty || l.activeIndex = 0 then []
  else firstAsked env skipNeverFaulted 0 (l.tiers.take l.activeIndex) l

variable {env} {l l' s : Ladder} {i j n : ℕ} {tier : DeviceTier} {fault : DeviceFault}
  {detail : String} {asked : List String}

/-- What `select` leaves of the ladder's own fields. -/
theorem activate_eq (l : Ladder) (i : ℕ) (tier : DeviceTier) :
    l.activate i tier = { l with
      activeIndex := i
      active := tier.name
      baselineIndex := if l.baselineSet then l.baselineIndex else i
      baselineSet := true
      degradedReason :=
        if i ≤ (if l.baselineSet then l.baselineIndex else i) then "" else l.degradedReason } := by
  cases hset : l.baselineSet with
  | true => by_cases hle : i ≤ l.baselineIndex <;> simp [activate, hset, hle]
  | false => simp [activate, hset]

/-- What `recoverEligibleTier` leaves of the ladder's own fields. -/
theorem restore_eq (l : Ladder) (i : ℕ) (tier : DeviceTier) :
    l.restore i tier = { l with
      activeIndex := i
      active := tier.name
      degradedReason := if i ≤ l.baselineIndex then "" else l.degradedReason } := by
  by_cases hle : i ≤ l.baselineIndex <;> simp [restore, hle]

theorem scan_select (env : Env) (l : Ladder) :
    Scan env skipNone l 0 l.tiers.length (l.selectAsked env)
      (firstEligible env skipNone 0 l.tiers l).1 (firstEligible env skipNone 0 l.tiers l).2 := by
  have hscan := scan_firstEligible env skipNone l.tiers l 0 (by
      intro k tier h
      rwa [Nat.zero_add])
  rwa [Nat.zero_add] at hscan

/-- `select` activates the tier its scan finds, or leaves none active. -/
theorem select_cases (env : Env) (l : Ladder) :
    (∃ j tier s, firstEligible env skipNone 0 l.tiers l = (some (j, tier), s) ∧
        Scan env skipNone l 0 l.tiers.length (l.selectAsked env) (some (j, tier)) s ∧
        l.select env = (true, s.activate j tier)) ∨
      ∃ s, firstEligible env skipNone 0 l.tiers l = (none, s) ∧
        Scan env skipNone l 0 l.tiers.length (l.selectAsked env) none s ∧
        l.select env = (false, { s with active := "" }) := by
  have hscan := scan_select env l
  have heq := selectFrom_eq env 0 l.tiers l
  cases hfirst : firstEligible env skipNone 0 l.tiers l with
  | mk found s =>
      rw [hfirst] at hscan heq
      cases found with
      | none => exact .inr ⟨s, rfl, hscan, heq⟩
      | some found => exact .inl ⟨found.1, found.2, s, rfl, hscan, heq⟩

theorem scan_recover (env : Env) (l : Ladder) :
    Scan env skipNeverFaulted l 0 (l.tiers.take l.activeIndex).length
      (firstAsked env skipNeverFaulted 0 (l.tiers.take l.activeIndex) l)
      (firstEligible env skipNeverFaulted 0 (l.tiers.take l.activeIndex) l).1
      (firstEligible env skipNeverFaulted 0 (l.tiers.take l.activeIndex) l).2 := by
  have hscan := scan_firstEligible env skipNeverFaulted (l.tiers.take l.activeIndex) l 0 (by
    intro k tier h
    rw [Nat.zero_add]
    rw [List.getElem?_take] at h
    exact (Option.ite_none_right_eq_some.mp h).2)
  rwa [Nat.zero_add] at hscan

/-- `recoverEligibleTier` restores the tier its scan finds, or only looks. -/
theorem recover_cases (env : Env) (l : Ladder) :
    (∃ j tier s, l.active.isEmpty = false ∧ j < l.activeIndex ∧
        Scan env skipNeverFaulted l 0 (l.tiers.take l.activeIndex).length (l.recoverAsked env)
          (some (j, tier)) s ∧
        l.recoverEligibleTier env = (true, s.restore j tier)) ∨
      ∃ s, Looks env l (l.recoverAsked env) s ∧ l.recoverEligibleTier env = (false, s) := by
  by_cases hquiet : (l.active.isEmpty || decide (l.activeIndex = 0)) = true
  · refine .inr ⟨l, ?_, if_pos hquiet⟩
    rw [recoverAsked, if_pos hquiet]
    exact .refl l
  · have hasked : l.recoverAsked env =
        firstAsked env skipNeverFaulted 0 (l.tiers.take l.activeIndex) l := if_neg hquiet
    have hrecover : l.recoverEligibleTier env =
        recoverFrom env 0 (l.tiers.take l.activeIndex) l := if_neg hquiet
    have hscan := l.scan_recover env
    rw [← hasked] at hscan
    rw [hrecover, recoverFrom_eq]
    cases hfirst : firstEligible env skipNeverFaulted 0 (l.tiers.take l.activeIndex) l with
    | mk found s =>
        rw [hfirst] at hscan
        cases found with
        | none => exact .inr ⟨s, hscan.looks, rfl⟩
        | some found =>
            have hlt := (hscan.passed found.1 found.2 rfl).2.1
            rw [List.length_take] at hlt
            refine .inl ⟨found.1, found.2, s, ?_, hlt.trans_le (Nat.min_le_left _ _), hscan, rfl⟩
            rw [Bool.or_eq_true, not_or] at hquiet
            exact Bool.not_eq_true _ ▸ hquiet.1

/-- The tier `reportFault` blames is the active one. -/
theorem reportFault_eq (hactive : l.active.isEmpty = false)
    (hget : l.tiers[l.activeIndex]? = some tier) :
    l.reportFault env fault detail =
      match (l.marked env fault detail).select env with
      | (true, s) =>
          if s.activeIndex ≤ l.activeIndex then
            (false, { s with activeIndex := l.activeIndex, active := l.active })
          else (true, { s with degradedReason := tier.name ++ ":" ++ fault.name })
      | (false, s) => (false, { s with activeIndex := l.activeIndex, active := l.active }) := by
  unfold reportFault
  rw [hactive, hget]
  rfl

theorem reportFault_quiet (h : l.active.isEmpty = true ∨ l.tiers[l.activeIndex]? = none) :
    l.reportFault env fault detail = (false, l) ∧ l.reportFaultAsked env fault detail = [] := by
  unfold reportFault reportFaultAsked
  rcases h with h | h
  · rw [h]
    exact ⟨rfl, rfl⟩
  · rw [h]
    cases l.active.isEmpty <;> exact ⟨rfl, rfl⟩

/-- `reportFault` does nothing where no tier is active; else it marks the active tier and scans the
whole ladder, moves to the tier found where that stands below, and stays where it was if not. -/
theorem reportFault_cases (env : Env) (l : Ladder) (fault : DeviceFault) (detail : String) :
    (l.active.isEmpty = true ∨ l.tiers[l.activeIndex]? = none) ∧
        l.reportFault env fault detail = (false, l) ∧ l.reportFaultAsked env fault detail = [] ∨
      ∃ tier, l.active.isEmpty = false ∧ l.tiers[l.activeIndex]? = some tier ∧
        ∃ found s, firstEligible env skipNone 0 (l.marked env fault detail).tiers
            (l.marked env fault detail) = (found, s) ∧
          Scan env skipNone (l.marked env fault detail) 0 l.tiers.length
            (l.reportFaultAsked env fault detail) found s ∧
          ((∃ j next, found = some (j, next) ∧ l.activeIndex < j ∧
              l.reportFault env fault detail = (true, { s.activate j next with
                degradedReason := tier.name ++ ":" ++ fault.name })) ∨
            (∃ j next, found = some (j, next) ∧ j ≤ l.activeIndex ∧
              l.reportFault env fault detail = (false, { s.activate j next with
                activeIndex := l.activeIndex, active := l.active })) ∨
            found = none ∧ l.reportFault env fault detail =
              (false, { s with activeIndex := l.activeIndex, active := l.active })) := by
  cases hactive : l.active.isEmpty with
  | true => exact .inl ⟨.inl rfl, reportFault_quiet (.inl hactive)⟩
  | false =>
      cases hget : l.tiers[l.activeIndex]? with
      | none => exact .inl ⟨.inr rfl, reportFault_quiet (.inr hget)⟩
      | some tier =>
          have hasked : l.reportFaultAsked env fault detail =
              (l.marked env fault detail).selectAsked env := by
            rw [reportFaultAsked, hactive, hget]
          have hlen : (l.marked env fault detail).tiers.length = l.tiers.length :=
            List.length_modify _ _ _
          refine .inr ⟨tier, rfl, rfl, ?_⟩
          rw [hasked, ← hlen, reportFault_eq hactive hget]
          rcases select_cases env (l.marked env fault detail) with
            ⟨j, next, s, hfirst, hscan, heq⟩ | ⟨s, hfirst, hscan, heq⟩
          · refine ⟨_, s, hfirst, hscan, ?_⟩
            rw [heq]
            by_cases hj : j ≤ l.activeIndex
            · refine .inr (.inl ⟨j, next, rfl, hj, ?_⟩)
              simp only [activate_eq, hj, if_true]
            · refine .inl ⟨j, next, rfl, Nat.not_le.mp hj, ?_⟩
              simp only [activate_eq, hj, if_false]
          · refine ⟨none, s, hfirst, hscan, .inr (.inr ⟨rfl, ?_⟩)⟩
            rw [heq]

/-- One call; `probeTierCached` has no answer for an index off the ladder. -/
def step (env : Env) (l : Ladder) : LadderAction → Option Ladder
  | .select => some (l.select env).2
  | .reportFault fault detail => some (l.reportFault env fault detail).2
  | .recoverEligibleTier => some (l.recoverEligibleTier env).2
  | .beginSession => some l.beginSession
  | .setProbe => some l.invalidateProbeCache
  | .invalidateProbeCache => some l.invalidateProbeCache
  | .healthCheck name => some (l.healthCheck env name).2
  | .tierState i => some (l.tierState env i)
  | .probeTierCached i => if i < l.tiers.length then some (l.probeAt env i) else none
  | .toJson => some (l.toJson env)

/-- The names a call hands to the probe. -/
def actionAsked (env : Env) (l : Ladder) : LadderAction → List String
  | .select => l.selectAsked env
  | .reportFault fault detail => l.reportFaultAsked env fault detail
  | .recoverEligibleTier => l.recoverAsked env
  | .beginSession | .setProbe | .invalidateProbeCache => []
  | .healthCheck name => [name]
  | .tierState i => l.tierStateAsked env i
  | .probeTierCached i => l.probeAtAsked env i
  | .toJson => toJsonAsked env 0 l.tiers.length l.tick

/-- The tier at the index is the active one. -/
def Active (l : Ladder) (i : ℕ) : Prop := l.active.isEmpty = false ∧ l.activeIndex = i

/-- The index of the tier a call blames for a fault. -/
def blamed (l : Ladder) : LadderAction → Option ℕ
  | .reportFault _ _ =>
      match l.active.isEmpty, l.tiers[l.activeIndex]? with
      | false, some _ => some l.activeIndex
      | _, _ => none
  | _ => none

theorem blamed_reportFault (hon : l.active.isEmpty = false)
    (hget : l.tiers[l.activeIndex]? = some tier) :
    l.blamed (.reportFault fault detail) = some l.activeIndex := by
  unfold blamed
  rw [hon, hget]

/-- The tiers and the counts of readings of one ladder are the other's. -/
structure SameTiers (l l' : Ladder) : Prop where
  tiers : l'.tiers = l.tiers
  reads : l'.reads = l.reads
  probes : l'.probes = l.probes
  quarantine : l'.quarantine = l.quarantine
  interval : l'.probeInterval = l.probeInterval

theorem SameTiers.names (h : SameTiers l l') : l'.names = l.names :=
  congrArg (List.map DeviceTier.name) h.tiers

/-- What a call can do, with the names it hands to the probe. -/
inductive Turn (env : Env) (l : Ladder) : LadderAction → List String → Ladder → Prop
  | looked {a : LadderAction} {asked : List String} {l' : Ladder} (hquiet : l.blamed a = none)
      (h : Looks env l asked l') : Turn env l a asked l'
  | invalidated {a : LadderAction} (hquiet : l.blamed a = none) :
      Turn env l a [] l.invalidateProbeCache
  | session : Turn env l .beginSession [] l.beginSession
  | lost {asked : List String} {s : Ladder}
      (h : Scan env skipNone l 0 l.tiers.length asked none s) :
      Turn env l .select asked { s with active := "" }
  | moved {a : LadderAction} {skip : DeviceTier → Bool} {n j : ℕ} {next : DeviceTier}
      {asked : List String} {s l' : Ladder}
      (hby : a = .select ∧ skip = skipNone ∨
        a = .recoverEligibleTier ∧ skip = skipNeverFaulted ∧ j < l.activeIndex)
      (h : Scan env skip l 0 n asked (some (j, next)) s)
      (hsame : SameTiers s l') (hindex : l'.activeIndex = j) (hactive : l'.active = next.name) :
      Turn env l a asked l'
  | fell {fault : DeviceFault} {detail : String} {tier next : DeviceTier} {j : ℕ}
      {asked : List String} {s l' : Ladder} (hon : l.active.isEmpty = false)
      (hget : l.tiers[l.activeIndex]? = some tier)
      (h : Scan env skipNone (l.marked env fault detail) 0 l.tiers.length asked
        (some (j, next)) s)
      (hbelow : l.activeIndex < j) (hsame : SameTiers s l') (hindex : l'.activeIndex = j)
      (hactive : l'.active = next.name) : Turn env l (.reportFault fault detail) asked l'
  | kept {fault : DeviceFault} {detail : String} {tier : DeviceTier}
      {found : Option (ℕ × DeviceTier)} {asked : List String} {s l' : Ladder}
      (hon : l.active.isEmpty = false) (hget : l.tiers[l.activeIndex]? = some tier)
      (h : Scan env skipNone (l.marked env fault detail) 0 l.tiers.length asked found s)
      (hsame : SameTiers s l') (hindex : l'.activeIndex = l.activeIndex)
      (hactive : l'.active = l.active) : Turn env l (.reportFault fault detail) asked l'

theorem sameTiers_activate (l : Ladder) (i : ℕ) (tier : DeviceTier) :
    SameTiers l (l.activate i tier) := by
  rw [activate_eq]
  exact ⟨rfl, rfl, rfl, rfl, rfl⟩

theorem sameTiers_restore (l : Ladder) (i : ℕ) (tier : DeviceTier) :
    SameTiers l (l.restore i tier) := by
  rw [restore_eq]
  exact ⟨rfl, rfl, rfl, rfl, rfl⟩

theorem turn_select (env : Env) (l : Ladder) :
    Turn env l .select (l.selectAsked env) (l.select env).2 := by
  rcases select_cases env l with ⟨j, tier, s, -, hscan, heq⟩ | ⟨s, -, hscan, heq⟩
  · rw [heq]
    refine .moved (.inl ⟨rfl, rfl⟩) hscan (sameTiers_activate s j tier) ?_ ?_ <;> rw [activate_eq]
  · rw [heq]
    exact .lost hscan

theorem turn_reportFault (env : Env) (l : Ladder) (fault : DeviceFault) (detail : String) :
    Turn env l (.reportFault fault detail) (l.reportFaultAsked env fault detail)
      (l.reportFault env fault detail).2 := by
  rcases reportFault_cases env l fault detail with
    ⟨hnone, heq, hasked⟩ | ⟨tier, hon, hget, found, s, -, hscan, hcases⟩
  · rw [heq, hasked]
    refine .looked ?_ (.refl l)
    unfold blamed
    rcases hnone with hempty | hnone
    · rw [hempty]
    · rw [hnone]
      cases l.active.isEmpty <;> rfl
  · rcases hcases with ⟨j, next, rfl, hj, heq⟩ | ⟨j, next, rfl, -, heq⟩ | ⟨rfl, heq⟩
    · rw [heq]
      have hsame := sameTiers_activate s j next
      refine .fell hon hget hscan hj ⟨hsame.1, hsame.2, hsame.3, hsame.4, hsame.5⟩ ?_ ?_ <;>
        rw [activate_eq]
    · rw [heq]
      have hsame := sameTiers_activate s j next
      exact .kept hon hget hscan ⟨hsame.1, hsame.2, hsame.3, hsame.4, hsame.5⟩ rfl rfl
    · rw [heq]
      exact .kept hon hget hscan ⟨rfl, rfl, rfl, rfl, rfl⟩ rfl rfl

theorem turn_recoverEligibleTier (env : Env) (l : Ladder) :
    Turn env l .recoverEligibleTier (l.recoverAsked env) (l.recoverEligibleTier env).2 := by
  rcases recover_cases env l with ⟨j, tier, s, -, hj, hscan, heq⟩ | ⟨s, hlooks, heq⟩
  · rw [heq]
    refine .moved (.inr ⟨rfl, rfl, hj⟩) hscan (sameTiers_restore s j tier) ?_ ?_ <;> rw [restore_eq]
  · rw [heq]
    exact .looked rfl hlooks

/-- Every call is one of the turns. -/
theorem turn_of_step {a : LadderAction} (hstep : l.step env a = some l') :
    Turn env l a (l.actionAsked env a) l' := by
  cases a with
  | select =>
      obtain rfl := Option.some.inj hstep
      exact turn_select _ l
  | reportFault fault detail =>
      obtain rfl := Option.some.inj hstep
      exact turn_reportFault _ l fault detail
  | recoverEligibleTier =>
      obtain rfl := Option.some.inj hstep
      exact turn_recoverEligibleTier _ l
  | beginSession =>
      obtain rfl := Option.some.inj hstep
      exact .session
  | setProbe =>
      obtain rfl := Option.some.inj hstep
      exact .invalidated rfl
  | invalidateProbeCache =>
      obtain rfl := Option.some.inj hstep
      exact .invalidated rfl
  | healthCheck name =>
      obtain rfl := Option.some.inj hstep
      exact .looked rfl (looks_healthCheck l name)
  | tierState i =>
      obtain rfl := Option.some.inj hstep
      exact .looked rfl (looks_tierState _ l i)
  | probeTierCached i =>
      obtain ⟨-, hstep⟩ := Option.ite_none_right_eq_some.mp hstep
      obtain rfl := Option.some.inj hstep
      exact .looked rfl (looks_probeAt l i)
  | toJson =>
      obtain rfl := Option.some.inj hstep
      exact .looked rfl (looks_toJson l)

theorem marked_tiers_of_ne (l : Ladder) {k : ℕ} (hk : l.activeIndex ≠ k) :
    (l.marked env fault detail).tiers[k]? = l.tiers[k]? :=
  List.getElem?_modify_ne _ _ hk

theorem marked_tiers_self (env : Env) (l : Ladder) (fault : DeviceFault) (detail : String) :
    (l.marked env fault detail).tiers[l.activeIndex]? = l.tiers[l.activeIndex]?.map
      (·.faulted fault detail (env.clock l.reads + l.quarantine)) :=
  List.getElem?_modify_eq _ _ _

theorem names_marked (l : Ladder) (fault : DeviceFault) (detail : String) :
    (l.marked env fault detail).names = l.names :=
  names_setTier l.tick l.activeIndex fun _ => rfl

theorem names_beginSession (l : Ladder) : l.beginSession.names = l.names := by
  simp [names, beginSession, Function.comp_def]

theorem names_invalidateProbeCache (l : Ladder) : l.invalidateProbeCache.names = l.names := by
  simp [names, invalidateProbeCache, Function.comp_def]

/-- The active tier, where there is one, is on the ladder. -/
def Seated (l : Ladder) : Prop :=
  l.active.isEmpty = false → l.names[l.activeIndex]? = some l.active

theorem Seated.of_names (h : l.Seated) (hnames : l'.names = l.names)
    (hactive : l'.active = l.active) (hindex : l'.activeIndex = l.activeIndex) : l'.Seated := by
  intro hne
  rw [hactive] at hne
  rw [hnames, hactive, hindex]
  exact h hne

theorem Seated.looks (h : l.Seated) (hlooks : Looks env l asked l') : l'.Seated := by
  have hrest := hlooks.rest
  refine h.of_names hlooks.names ?_ ?_ <;> rw [hrest]

theorem Scan.name {skip : DeviceTier → Bool} (hscan : Scan env skip l i n asked (some (j, tier)) s) :
    s.names[j]? = some tier.name := by
  have hget := (hscan.passed j tier rfl).2.2.1
  rw [hscan.looks.names, names, List.getElem?_map, hget]
  rfl

/-- No call changes the names on the ladder. -/
theorem Turn.names {a : LadderAction} (hturn : Turn env l a asked l') : l'.names = l.names := by
  cases hturn with
  | looked _ hlooks => exact hlooks.names
  | invalidated _ => exact names_invalidateProbeCache l
  | session => exact names_beginSession l
  | lost hscan => exact hscan.looks.names
  | moved _ hscan hsame => exact hsame.names.trans hscan.looks.names
  | fell _ _ hscan _ hsame =>
      exact hsame.names.trans (hscan.looks.names.trans (names_marked l _ _))
  | kept _ _ hscan hsame =>
      exact hsame.names.trans (hscan.looks.names.trans (names_marked l _ _))

/-- Every call keeps the active tier on the ladder. -/
theorem Seated.turn {a : LadderAction} (h : l.Seated) (hturn : Turn env l a asked l') :
    l'.Seated := by
  cases hturn with
  | looked _ hlooks => exact h.looks hlooks
  | invalidated _ => exact h.of_names (names_invalidateProbeCache l) rfl rfl
  | session => exact h.of_names (names_beginSession l) rfl rfl
  | lost =>
      intro hactive
      cases hactive
  | moved _ hscan hsame hindex hactive =>
      intro _
      rw [hindex, hactive, hsame.names]
      exact hscan.name
  | fell _ _ hscan _ hsame hindex hactive =>
      intro _
      rw [hindex, hactive, hsame.names]
      exact hscan.name
  | kept _ _ hscan hsame hindex hactive =>
      have hnames := hsame.names.trans (hscan.looks.names.trans (names_marked l _ _))
      exact h.of_names hnames hactive hindex

theorem seated_ofOrder (order : List String) (quarantineMs probeIntervalMs : ℤ) :
    (Ladder.ofOrder order quarantineMs probeIntervalMs).Seated := by
  intro hactive
  cases hactive

/-- In every reachable state the active tier is on the ladder. -/
theorem seated_of_exec {order : List String} {quarantineMs probeIntervalMs : ℤ}
    {actions : List LadderAction}
    (hexec : Machine.exec (Ladder.step env)
      (.ofOrder order quarantineMs probeIntervalMs) actions = some l) : l.Seated :=
  Machine.exec_invariant (seated_ofOrder order quarantineMs probeIntervalMs)
    (fun _ _ _ h hstep => h.turn (turn_of_step hstep)) hexec

/-- The tier `reportFault` moves to stands below. -/
theorem reportFault_below {l' : Ladder} (h : l.reportFault env fault detail = (true, l')) :
    l.activeIndex < l'.activeIndex ∧ l'.activeIndex < l'.tiers.length := by
  rcases reportFault_cases env l fault detail with
    ⟨-, heq, -⟩ | ⟨tier, -, -, found, s, -, hscan, hcases⟩
  · rw [h] at heq
    cases heq
  · rcases hcases with ⟨j, next, rfl, hj, heq⟩ | ⟨j, next, rfl, -, heq⟩ | ⟨-, heq⟩
    · rw [h] at heq
      obtain rfl := (Prod.mk.inj heq).2
      obtain ⟨-, -, -, -, tier', hget', -⟩ := hscan.passed j next rfl
      rw [activate_eq]
      exact ⟨hj, (List.getElem?_eq_some_iff.mp hget').1⟩
    · rw [h] at heq
      cases heq
    · rw [h] at heq
      cases heq

/-- Where `reportFault` moves nothing, the active tier stays. -/
theorem reportFault_kept {l' : Ladder} (h : l.reportFault env fault detail = (false, l')) :
    l'.active = l.active ∧ l'.activeIndex = l.activeIndex := by
  rcases reportFault_cases env l fault detail with
    ⟨-, heq, -⟩ | ⟨tier, -, -, found, s, -, hscan, hcases⟩
  · rw [h] at heq
    obtain rfl := (Prod.mk.inj heq).2
    exact ⟨rfl, rfl⟩
  · rcases hcases with ⟨j, next, rfl, -, heq⟩ | ⟨j, next, rfl, -, heq⟩ | ⟨-, heq⟩
    · rw [h] at heq
      cases heq
    · rw [h] at heq
      obtain rfl := (Prod.mk.inj heq).2
      exact ⟨rfl, rfl⟩
    · rw [h] at heq
      obtain rfl := (Prod.mk.inj heq).2
      exact ⟨rfl, rfl⟩

/-- Where `recoverEligibleTier` moves nothing, the active tier stays. -/
theorem recover_kept {l' : Ladder} (h : l.recoverEligibleTier env = (false, l')) :
    l'.active = l.active ∧ l'.activeIndex = l.activeIndex := by
  rcases recover_cases env l with ⟨j, tier, s, -, -, -, heq⟩ | ⟨s, hlooks, heq⟩
  · rw [h] at heq
    cases heq
  · rw [h] at heq
    obtain rfl := (Prod.mk.inj heq).2
    rw [hlooks.rest]
    exact ⟨rfl, rfl⟩

theorem Seated.get (h : l.Seated) (hactive : l.active.isEmpty = false) :
    ∃ tier, l.tiers[l.activeIndex]? = some tier ∧ tier.name = l.active := by
  have hname := h hactive
  rw [names, List.getElem?_map] at hname
  exact Option.map_eq_some_iff.mp hname

end Ladder

end ServeInfer.Device
