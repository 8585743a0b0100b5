import ServeInfer.Device.RouterRuns
import ServeInfer.Supervisor.Liveness

/-!
# Tiers that can become active

A ladder takes any names, but a tier becomes active only where a probe of it has
answered that it is available, and `probeDevice` answers so only for the names it
knows.
-/

namespace ServeInfer.Device

open Supervisor (knownBackends)

/-- `probeDevice`, over what the probes of the known backends find. -/
def probeDevice (found : String → ProbeResult) (name : String) : ProbeResult :=
  if name ∈ knownBackends then found name else .runtimeMissing

theorem mem_of_probeDevice {found : String → ProbeResult} {name : String}
    (h : probeDevice found name = .available) : name ∈ knownBackends := by
  unfold probeDevice at h
  split at h
  · assumption
  · cases h

/-- The names that some probe answers available for. -/
def Env.Probes (env : Env) (P : String → Prop) : Prop :=
  ∀ n name, env.probe n name = .available → P name

namespace Ladder

/-- The active tier is of the names, and so is every tier that is cached as available. -/
structure Vetted (P : String → Prop) (l : Ladder) : Prop where
  active : l.active.isEmpty = false → P l.active
  caches : ∀ tier ∈ l.tiers, tier.probeCacheValid = true → tier.cachedProbe = .available →
    P tier.name

variable {P : String → Prop} {env : Env} {l l' s : Ladder} {a : LadderAction}
  {asked : List String} {skip : DeviceTier → Bool} {i n j : ℕ} {tier : DeviceTier}

theorem vetted_ofOrder (order : List String) (quarantineMs probeIntervalMs : ℤ) :
    (Ladder.ofOrder order quarantineMs probeIntervalMs).Vetted P where
  active h := by cases h
  caches := by
    intro tier htier hvalid
    obtain ⟨name, -, rfl⟩ := List.mem_map.mp htier
    cases hvalid

theorem Vetted.of_tiers (h : l.Vetted P) (htiers : l'.tiers = l.tiers)
    (hactive : l'.active.isEmpty = false → P l'.active) : l'.Vetted P :=
  ⟨hactive, htiers ▸ h.caches⟩

/-- Without valid caches the active tier is all there is to know. -/
theorem Vetted.of_invalid (h : l.Vetted P) (hactive : l'.active = l.active)
    (hinvalid : ∀ tier ∈ l'.tiers, tier.probeCacheValid = false) : l'.Vetted P where
  active hne := hactive ▸ h.active (hactive ▸ hne)
  caches tier htier hvalid := absurd ((hinvalid tier htier).symm.trans hvalid) (by decide)

/-- A look at the tiers caches what the probes answer. -/
theorem Vetted.looks (h : l.Vetted P) (hprobes : env.Probes P) (hlooks : Looks env l asked l') :
    l'.Vetted P where
  active hne := by
    have hactive : l'.active = l.active := by rw [hlooks.rest]
    rw [hactive] at hne ⊢
    exact h.active hne
  caches := by
    intro tier htier hvalid havailable
    obtain ⟨k, hget⟩ := List.mem_iff_getElem?.mp htier
    obtain hkept | ⟨n, -, hprobe⟩ := hlooks.caches k tier hget
    · exact h.caches tier (List.mem_of_getElem? hkept) hvalid havailable
    · exact hprobes _ _ (hprobe.symm.trans havailable)

theorem Vetted.marked (h : l.Vetted P) (env : Env) (fault : DeviceFault) (detail : String) :
    (l.marked env fault detail).Vetted P where
  active := h.active
  caches := by
    intro tier htier hvalid
    obtain ⟨k, hget⟩ := List.mem_iff_getElem?.mp htier
    by_cases hk : l.activeIndex = k
    · subst hk
      rw [marked_tiers_self] at hget
      obtain ⟨tier, -, rfl⟩ := Option.map_eq_some_iff.mp hget
      cases hvalid
    · rw [marked_tiers_of_ne l hk] at hget
      exact h.caches tier (List.mem_of_getElem? hget) hvalid

/-- The tier a scan finds has been probed, and answered. -/
theorem Vetted.found (h : s.Vetted P) (hscan : Scan env skip l i n asked (some (j, tier)) s) :
    P tier.name := by
  obtain ⟨-, -, hget, -, tier', hget', hpassed⟩ := hscan.passed j tier rfl
  have hname : tier'.name = tier.name := by
    have hnames := congrArg (·[j]?) hscan.looks.names
    simp only [names, List.getElem?_map, hget, hget', Option.map_some, Option.some.injEq] at hnames
    exact hnames
  rw [← hname]
  exact h.caches tier' (List.mem_of_getElem? hget') hpassed.valid hpassed.probe

theorem Vetted.turn (h : l.Vetted P) (hprobes : env.Probes P) (hturn : Turn env l a asked l') :
    l'.Vetted P := by
  cases hturn with
  | looked _ hlooks => exact h.looks hprobes hlooks
  | invalidated _ =>
      refine h.of_invalid rfl ?_
      intro tier htier
      obtain ⟨tier, -, rfl⟩ := List.mem_map.mp htier
      rfl
  | session =>
      refine h.of_invalid rfl ?_
      intro tier htier
      obtain ⟨tier, -, rfl⟩ := List.mem_map.mp htier
      rfl
  | lost hscan => exact (h.looks hprobes hscan.looks).of_tiers rfl fun hne => by cases hne
  | moved _ hscan hsame _ hactive =>
      have hs := h.looks hprobes hscan.looks
      exact hs.of_tiers hsame.tiers fun _ => hactive ▸ hs.found hscan
  | @fell fault detail _ _ _ _ _ _ _ _ hscan _ hsame _ hactive =>
      have hs := (h.marked env fault detail).looks hprobes hscan.looks
      exact hs.of_tiers hsame.tiers fun _ => hactive ▸ hs.found hscan
  | @kept fault detail _ _ _ _ _ _ _ hscan hsame _ hactive =>
      have hs := (h.marked env fault detail).looks hprobes hscan.looks
      exact hs.of_tiers hsame.tiers fun hne => hactive ▸ h.active (hactive ▸ hne)

end Ladder

namespace Router

variable {P : String → Prop} {env : RouterEnv} {r : Router} {prompt : String} {onToken : Bool}

theorem vetted_route (hprobes : env.Probes P) (h : r.ladder.Vetted P) :
    (r.route env prompt onToken).2.ladder.Vetted P := by
  have hkept := kept_of_turn fun l a asked l' (hl : l.Vetted P) hturn => hl.turn hprobes hturn
  exact hkept.route (fun _ _ h => h) h

/-- In every reachable router the active tier is of the names that the probes answer for. -/
theorem vetted_of_exec {order : List String} {quarantineMs probeIntervalMs : ℤ}
    {actions : List RouterAction} (hprobes : env.Probes P)
    (hexec : Machine.exec (step env) (.ofOrder order quarantineMs probeIntervalMs) actions =
      some r) : r.ladder.Vetted P :=
  ladder_of_exec (fun _ _ _ _ h hturn => h.turn hprobes hturn)
    (Ladder.vetted_ofOrder order quarantineMs probeIntervalMs) hexec

end Router

end ServeInfer.Device
