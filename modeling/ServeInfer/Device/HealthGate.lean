import ServeInfer.Device.LadderRuns
import Mathlib.Logic.Function.Basic

/-!
# The health gate

A tier that has faulted comes back only through `select` or `recoverEligibleTier`.
Their probe may be a cached one; the cache is emptied by a fault, so what it holds
was asked after the last fault of the tier, whoever asked.
-/

namespace ServeInfer.Device

namespace Ladder

variable {env : Env} {l l' s : Ladder} {i j k n : ℕ} {tier : DeviceTier} {fault : DeviceFault}
  {detail : String} {asked : List String} {a : LadderAction}

theorem Active.of_eq (h : l'.Active i) (hactive : l'.active = l.active)
    (hindex : l'.activeIndex = l.activeIndex) : l.Active i := by
  rw [Active, ← hactive, ← hindex]
  exact h

/-- A tier that a call makes active has passed a look within the call. -/
theorem Turn.arrived (hturn : Turn env l a asked l') (hbefore : ¬ l.Active i)
    (hafter : l'.Active i) :
    ∃ tier, l'.tiers[i]? = some tier ∧ Passed env l.reads l'.reads tier := by
  cases hturn with
  | looked _ hlooks =>
      have hrest := hlooks.rest
      refine absurd (hafter.of_eq ?_ ?_) hbefore <;> rw [hrest]
  | invalidated _ => exact absurd (hafter.of_eq rfl rfl) hbefore
  | session => exact absurd (hafter.of_eq rfl rfl) hbefore
  | lost => cases hafter.1
  | moved _ hscan hsame hindex hactive =>
      obtain rfl := hindex.symm.trans hafter.2
      obtain ⟨-, -, -, -, tier, htier, hpass⟩ := hscan.passed _ _ rfl
      rw [hsame.tiers, hsame.reads]
      exact ⟨tier, htier, hpass⟩
  | fell hon hget hscan hbelow hsame hindex hactive =>
      obtain rfl := hindex.symm.trans hafter.2
      obtain ⟨-, -, -, -, tier, htier, hpass⟩ := hscan.passed _ _ rfl
      rw [hsame.tiers, hsame.reads]
      exact ⟨tier, htier, hpass.mono (Nat.le_succ _) le_rfl⟩
  | kept _ _ _ _ hindex hactive => exact absurd (hafter.of_eq hactive hindex) hbefore

theorem active_of_blamed (h : l.blamed a = some i) : l.Active i := by
  unfold blamed at h
  split at h
  · split at h
    · rename_i hon _
      exact ⟨hon, Option.some.inj h⟩
    · cases h
  · cases h

end Ladder

/-- A ladder, the names handed to the probe so far, and how many these were when the tier at an
index last faulted. -/
structure Watched where
  ladder : Ladder
  asked : List String := []
  faultedAt : ℕ → Option ℕ := fun _ => none

namespace Watched

variable {env : Env} {w w' : Watched} {l l' : Ladder} {i : ℕ} {tier : DeviceTier}
  {asked : List String} {a : LadderAction}

def step (env : Env) (w : Watched) (a : LadderAction) : Option Watched :=
  (w.ladder.step env a).map fun l =>
    { ladder := l
      asked := w.asked ++ w.ladder.actionAsked env a
      faultedAt :=
        match w.ladder.blamed a with
        | some i => Function.update w.faultedAt i (some w.asked.length)
        | none => w.faultedAt }

/-- Every answer in a probe cache was asked for, of that tier, after the tier's last fault. -/
structure CacheSound (env : Env) (l : Ladder) (asked : List String) (faultedAt : ℕ → Option ℕ) :
    Prop where
  count : l.probes = asked.length
  bound : ∀ i m, faultedAt i = some m → m ≤ asked.length
  cached : ∀ (i : ℕ) (tier : DeviceTier), l.tiers[i]? = some tier → tier.probeCacheValid = true →
    ∃ n : ℕ, asked[n]? = some tier.name ∧ tier.cachedProbe = env.probe n tier.name ∧
      ∀ m, faultedAt i = some m → m ≤ n

variable {faultedAt : ℕ → Option ℕ} {asked' : List String}

theorem CacheSound.looks (h : CacheSound env l asked faultedAt)
    (hlooks : Ladder.Looks env l asked' l') : CacheSound env l' (asked ++ asked') faultedAt where
  count := by rw [hlooks.probes, h.count, List.length_append]
  bound i m hm := by
    rw [List.length_append]
    exact (h.bound i m hm).trans (Nat.le_add_right _ _)
  cached := by
    intro i tier hget hvalid
    rcases hlooks.caches i tier hget with hkept | ⟨n, hn, hprobe⟩
    · obtain ⟨n, hn, hprobe, hafter⟩ := h.cached i tier hkept hvalid
      refine ⟨n, ?_, hprobe, hafter⟩
      rw [List.getElem?_append_left (List.getElem?_eq_some_iff.mp hn).1]
      exact hn
    · refine ⟨asked.length + n, ?_, ?_, ?_⟩
      · rw [List.getElem?_append_right (Nat.le_add_right _ _), Nat.add_sub_cancel_left]
        exact hn
      · rw [← h.count]
        exact hprobe
      · intro m hm
        exact (h.bound i m hm).trans (Nat.le_add_right _ _)

theorem CacheSound.sameTiers (h : CacheSound env l asked faultedAt) (hsame : l.SameTiers l') :
    CacheSound env l' asked faultedAt where
  count := hsame.probes.trans h.count
  bound := h.bound
  cached := by
    rw [hsame.tiers]
    exact h.cached

/-- A fault empties the cache of the tier it is blamed on. -/
theorem CacheSound.marked (h : CacheSound env l asked faultedAt) (fault : DeviceFault)
    (detail : String) : CacheSound env (l.marked env fault detail) asked
      (Function.update faultedAt l.activeIndex (some asked.length)) where
  count := h.count
  bound := by
    intro i m hm
    by_cases hi : i = l.activeIndex
    · subst hi
      rw [Function.update_self, Option.some.injEq] at hm
      exact hm.ge
    · rw [Function.update_of_ne hi] at hm
      exact h.bound i m hm
  cached := by
    intro i tier hget hvalid
    by_cases hi : i = l.activeIndex
    · subst hi
      rw [Ladder.marked_tiers_self] at hget
      obtain ⟨old, -, rfl⟩ := Option.map_eq_some_iff.mp hget
      cases hvalid
    · rw [Ladder.marked_tiers_of_ne l (Ne.symm hi)] at hget
      rw [Function.update_of_ne hi]
      exact h.cached i tier hget hvalid

/-- Emptied caches hold no answer at all. -/
theorem CacheSound.emptied (h : CacheSound env l asked faultedAt) (hprobes : l'.probes = l.probes)
    (hempty : ∀ tier ∈ l'.tiers, tier.probeCacheValid = false) :
    CacheSound env l' asked faultedAt where
  count := hprobes.trans h.count
  bound := h.bound
  cached := by
    intro i tier hget hvalid
    rw [hempty tier (List.mem_of_getElem? hget)] at hvalid
    cases hvalid

theorem cacheSound_invalidateProbeCache (h : CacheSound env l asked faultedAt) :
    CacheSound env l.invalidateProbeCache asked faultedAt := by
  refine h.emptied rfl ?_
  intro tier hmem
  obtain ⟨old, -, rfl⟩ := List.mem_map.mp hmem
  rfl

theorem cacheSound_beginSession (h : CacheSound env l asked faultedAt) :
    CacheSound env l.beginSession asked faultedAt := by
  refine h.emptied rfl ?_
  intro tier hmem
  obtain ⟨old, -, rfl⟩ := List.mem_map.mp hmem
  rfl

/-- The watched ladder's caches are sound. -/
def Sound (env : Env) (w : Watched) : Prop := CacheSound env w.ladder w.asked w.faultedAt

theorem step_eq (hstep : w.step env a = some w') :
    ∃ l', w.ladder.step env a = some l' ∧ w'.ladder = l' ∧
      w'.asked = w.asked ++ w.ladder.actionAsked env a ∧
      w'.faultedAt = (match w.ladder.blamed a with
        | some i => Function.update w.faultedAt i (some w.asked.length)
        | none => w.faultedAt) := by
  obtain ⟨l', hl, rfl⟩ := Option.map_eq_some_iff.mp hstep
  exact ⟨l', hl, rfl, rfl, rfl⟩

theorem Sound.step (h : w.Sound env) (hstep : w.step env a = some w') : w'.Sound env := by
  obtain ⟨l', hl, hladder, hasked, hfaulted⟩ := step_eq hstep
  have hturn := Ladder.turn_of_step hl
  rw [Sound, hladder, hasked, hfaulted]
  generalize w.ladder.actionAsked env a = asked at hturn ⊢
  cases hturn with
  | looked hquiet hlooks =>
      rw [hquiet]
      exact h.looks hlooks
  | invalidated hquiet =>
      rw [hquiet, List.append_nil]
      exact cacheSound_invalidateProbeCache h
  | session =>
      rw [List.append_nil]
      exact cacheSound_beginSession h
  | lost hscan => exact (h.looks hscan.looks).sameTiers ⟨rfl, rfl, rfl, rfl, rfl⟩
  | moved hby hscan hsame =>
      have hquiet : w.ladder.blamed a = none := by
        rcases hby with ⟨rfl, -⟩ | ⟨rfl, -⟩ <;> rfl
      rw [hquiet]
      exact (h.looks hscan.looks).sameTiers hsame
  | fell hon hget hscan _ hsame =>
      rw [Ladder.blamed_reportFault hon hget]
      exact ((h.marked _ _).looks hscan.looks).sameTiers hsame
  | kept hon hget hscan hsame =>
      rw [Ladder.blamed_reportFault hon hget]
      exact ((h.marked _ _).looks hscan.looks).sameTiers hsame

theorem sound_ofOrder (order : List String) (quarantineMs probeIntervalMs : ℤ) :
    Sound env { ladder := .ofOrder order quarantineMs probeIntervalMs } := by
  refine ⟨rfl, ?_, ?_⟩
  · intro i m hm
    cases hm
  · intro i tier hget hvalid
    obtain ⟨name, -, rfl⟩ := List.mem_map.mp (List.mem_of_getElem? hget)
    cases hvalid

theorem sound_of_exec {order : List String} {quarantineMs probeIntervalMs : ℤ}
    {actions : List LadderAction}
    (hexec : Machine.exec (Watched.step env)
      { ladder := .ofOrder order quarantineMs probeIntervalMs } actions = some w) :
    w.Sound env :=
  Machine.exec_invariant (sound_ofOrder order quarantineMs probeIntervalMs)
    (fun _ _ _ h hstep => h.step hstep) hexec

/-- The tier is session-fatal and not active. -/
def Removed (w : Watched) (i : ℕ) : Prop :=
  ¬ w.ladder.Active i ∧
    ∃ tier, w.ladder.tiers[i]? = some tier ∧ tier.sessionFatal = true

/-- Only a new session takes the mark off a session-fatal tier. -/
theorem sessionFatal_turn (hturn : Ladder.Turn env l a asked l') (ha : a ≠ .beginSession)
    (hget : l.tiers[i]? = some tier) (hfatal : tier.sessionFatal = true) :
    ∃ tier', l'.tiers[i]? = some tier' ∧ tier'.sessionFatal = true := by
  have hlooks : ∀ {l₀ s : Ladder} {asked : List String} {old : DeviceTier},
      Ladder.Looks env l₀ asked s → l₀.tiers[i]? = some old → old.sessionFatal = true →
        ∃ tier', s.tiers[i]? = some tier' ∧ tier'.sessionFatal = true := by
    intro l₀ s asked old h hold hfatal
    obtain ⟨tier', hget', heq⟩ := h.get hold
    exact ⟨tier', hget', (congrArg DeviceTier.sessionFatal heq).trans hfatal⟩
  have hmarked : ∀ (fault : DeviceFault) (detail : String), ∃ old,
      (l.marked env fault detail).tiers[i]? = some old ∧ old.sessionFatal = true := by
    intro fault detail
    by_cases hi : l.activeIndex = i
    · refine ⟨tier.faulted fault detail (env.clock l.reads + l.quarantine), ?_, ?_⟩
      · rw [← hi] at hget ⊢
        rw [Ladder.marked_tiers_self, hget]
        rfl
      · simp [DeviceTier.faulted, hfatal]
    · refine ⟨tier, ?_, hfatal⟩
      rw [Ladder.marked_tiers_of_ne l hi]
      exact hget
  cases hturn with
  | looked _ h => exact hlooks h hget hfatal
  | invalidated _ =>
      refine ⟨{ tier with probeCacheValid := false }, ?_, hfatal⟩
      rw [Ladder.invalidateProbeCache, List.getElem?_map, hget]
      rfl
  | session => exact absurd rfl ha
  | lost hscan =>
      obtain ⟨tier', hget', hfatal'⟩ := hlooks hscan.looks hget hfatal
      exact ⟨tier', hget', hfatal'⟩
  | moved _ hscan hsame =>
      rw [hsame.tiers]
      exact hlooks hscan.looks hget hfatal
  | fell _ _ hscan _ hsame =>
      rw [hsame.tiers]
      obtain ⟨old, hold, hfatal⟩ := hmarked _ _
      exact hlooks hscan.looks hold hfatal
  | kept _ _ hscan hsame =>
      rw [hsame.tiers]
      obtain ⟨old, hold, hfatal⟩ := hmarked _ _
      exact hlooks hscan.looks hold hfatal

theorem Removed.step (h : w.Removed i) (ha : a ≠ .beginSession) (hstep : w.step env a = some w') :
    w'.Removed i := by
  obtain ⟨l', hl, hladder, -, -⟩ := step_eq hstep
  have hturn := Ladder.turn_of_step hl
  obtain ⟨hoff, tier, hget, hfatal⟩ := h
  obtain ⟨tier', hget', hfatal'⟩ := sessionFatal_turn hturn ha hget hfatal
  rw [Removed, hladder]
  refine ⟨?_, tier', hget', hfatal'⟩
  intro hactive
  obtain ⟨passed, hpassed, hpass⟩ := hturn.arrived hoff hactive
  rw [hget', Option.some.injEq] at hpassed
  subst hpassed
  rw [hpass.session] at hfatal'
  cases hfatal'

/-- A removal that moves the ladder off a tier leaves it session-fatal and not active. -/
theorem removed_of_fault {detail : String} (hactive : w.ladder.Active i)
    (hstep : w.step env (.reportFault .removed detail) = some w') (hoff : ¬ w'.ladder.Active i) :
    w'.Removed i := by
  obtain ⟨l', hl, hladder, -, -⟩ := step_eq hstep
  have hturn := Ladder.turn_of_step hl
  rw [hladder] at hoff
  rw [Removed, hladder]
  refine ⟨hoff, ?_⟩
  generalize w.ladder.actionAsked env _ = asked at hturn
  cases hturn with
  | looked _ hlooks =>
      refine absurd (hactive.of_eq ?_ ?_) hoff <;> rw [hlooks.rest]
  | invalidated _ => exact absurd (hactive.of_eq rfl rfl) hoff
  | moved hby => rcases hby with ⟨ha, -⟩ | ⟨ha, -⟩ <;> cases ha
  | fell hon hget hscan _ hsame =>
      have hmarked := Ladder.marked_tiers_self env w.ladder .removed detail
      rw [hget, hactive.2] at hmarked
      obtain ⟨tier', hget', heq⟩ := hscan.looks.get hmarked
      rw [hsame.tiers]
      refine ⟨tier', hget', (congrArg DeviceTier.sessionFatal heq).trans ?_⟩
      simp [DeviceTier.uncached, DeviceTier.faulted]
  | kept _ _ _ _ hindex hact => exact absurd (hactive.of_eq hact.symm hindex.symm) hoff

/-- Whoever comes back after a fault is not session-fatal, out of quarantine, and has passed a
probe of it made after the fault. -/
def ReturnsHealthy (env : Env) (w : Watched) : Prop :=
  ∀ (a : LadderAction) (w' : Watched) (i m : ℕ), w.step env a = some w' →
    w.faultedAt i = some m → ¬ w.ladder.Active i → w'.ladder.Active i →
      ∃ tier, w'.ladder.tiers[i]? = some tier ∧ tier.sessionFatal = false ∧
        (∃ r, w.ladder.reads ≤ r ∧ r < w'.ladder.reads ∧
          tier.quarantinedUntil ≤ env.clock r) ∧
        ∃ n, m ≤ n ∧ w'.asked[n]? = some tier.name ∧ env.probe n tier.name = .available

/-- A removal that moves the ladder off a tier keeps it off for the session. -/
def RemovedStaysOff (env : Env) (w : Watched) : Prop :=
  ∀ (detail : String) (w' : Watched) (i : ℕ), w.ladder.Active i →
    w.step env (.reportFault .removed detail) = some w' → ¬ w'.ladder.Active i →
      ∀ (later : List LadderAction) (w'' : Watched), LadderAction.beginSession ∉ later →
        Machine.exec (Watched.step env) w' later = some w'' → ¬ w''.ladder.Active i

theorem returnsHealthy_of_sound (h : w.Sound env) : w.ReturnsHealthy env := by
  intro a w' i m hstep hfault hbefore hafter
  obtain ⟨l', hl, hladder, -, hfaulted⟩ := step_eq hstep
  have hsound := h.step hstep
  have hturn := Ladder.turn_of_step hl
  rw [hladder] at hafter
  obtain ⟨tier, hget, hpass⟩ := hturn.arrived hbefore hafter
  rw [← hladder] at hget hpass
  -- The tier blamed in this very call was active before it.
  have hkept : w'.faultedAt i = some m := by
    rw [hfaulted]
    cases hblamed : w.ladder.blamed a with
    | none => exact hfault
    | some k =>
        have hk : w.ladder.Active k := Ladder.active_of_blamed hblamed
        have hne : i ≠ k := by
          rintro rfl
          exact hbefore hk
        exact (Function.update_of_ne hne _ _).trans hfault
  obtain ⟨n, hn, hprobe, hlast⟩ := hsound.cached i tier hget hpass.valid
  refine ⟨tier, hget, hpass.session, hpass.served, n, hlast m hkept, hn, ?_⟩
  rw [← hprobe]
  exact hpass.probe

/-- Within a session a removed tier stays removed. -/
theorem Removed.exec {later : List LadderAction} (h : w.Removed i)
    (hlater : LadderAction.beginSession ∉ later)
    (hexec : Machine.exec (Watched.step env) w later = some w') : w'.Removed i := by
  induction later generalizing w with
  | nil =>
      cases hexec
      exact h
  | cons a later ih =>
      rw [Machine.exec_cons] at hexec
      obtain ⟨t, ht, hexec⟩ := Option.bind_eq_some_iff.mp hexec
      rw [List.mem_cons, not_or] at hlater
      exact ih (h.step (Ne.symm hlater.1) ht) hlater.2 hexec

theorem removedStaysOff (env : Env) (w : Watched) : w.RemovedStaysOff env := by
  intro detail w' i hactive hstep hoff later w'' hlater hexec
  exact ((removed_of_fault hactive hstep hoff).exec hlater hexec).1

/-- In every reachable state the next call brings back only healthy tiers, and a removed tier stays
off until the next session. -/
theorem health_gate (env : Env) (order : List String) (quarantineMs probeIntervalMs : ℤ)
    (actions : List LadderAction) (w : Watched)
    (hexec : Machine.exec (Watched.step env)
      { ladder := .ofOrder order quarantineMs probeIntervalMs } actions = some w) :
    w.ReturnsHealthy env ∧ w.RemovedStaysOff env :=
  ⟨returnsHealthy_of_sound (sound_of_exec hexec), removedStaysOff env w⟩

/-- Every probe available, and a clock that goes on by a minute at each reading. -/
def minutes : Env where
  clock n := n * (60000 * ticksPerMs)
  probe _ _ := .available

/-- Cuda is removed, the ladder falls to cpu, and a recovery finds nothing to restore. -/
theorem health_gate_removed : ∃ w, Machine.exec (Watched.step minutes)
      { ladder := .ofOrder ["cuda", "cpu"] 30000 0 }
      [.select, .reportFault .removed "device hung", .recoverEligibleTier] = some w ∧
    w.ReturnsHealthy minutes ∧ w.RemovedStaysOff minutes :=
  ⟨_, rfl, health_gate minutes ["cuda", "cpu"] 30000 0
    [.select, .reportFault .removed "device hung", .recoverEligibleTier] _ rfl⟩

end Watched

end ServeInfer.Device
