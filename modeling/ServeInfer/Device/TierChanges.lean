import ServeInfer.Device.KnownTiers

/-!
# What the fallback hook is told

The hook's calls as the router's log has them. They form a path: each one names the
tier that was active before it and the tier that is active after it, so that the
calls of a request lead from the tier it found to the tier it leaves.
-/

namespace ServeInfer.Device

/-- A call of the hook, with whether the ladder's last move before it was a recovery. -/
structure TierChange where
  previous : String
  next : String
  recovered : Bool
  answer : Bool
  deriving DecidableEq, Repr

/-- Whether the last move was a recovery, and the hook's calls so far. -/
def RouterEvent.told (seen : Bool × List TierChange) : RouterEvent → Bool × List TierChange
  | .tried _ => seen
  | .moved _ _ recovered => (recovered, seen.2)
  | .hooked previous next answer => (seen.1, seen.2 ++ [⟨previous, next, seen.1, answer⟩])

/-- The hook's calls, in order. -/
def tierChanges (log : List RouterEvent) : List TierChange :=
  (log.foldl RouterEvent.told (false, [])).2

/-- The hook's calls from a number on, and the tiers between which they lead. -/
inductive Led (env : RouterEnv) : ℕ → String → List TierChange → String → Prop
  | stay (n : ℕ) (tier : String) : Led env n tier [] tier
  | change {n : ℕ} {tier next last : String} {recovered : Bool} {cs : List TierChange}
      (rest : Led env (n + 1) next cs last) :
      Led env n tier (⟨tier, next, recovered, env.onFallback n tier next⟩ :: cs) last

theorem Led.trans {env : RouterEnv} {n : ℕ} {tier next last : String} {cs ds : List TierChange}
    (h : Led env n tier cs next) (h' : Led env (n + cs.length) next ds last) :
    Led env n tier (cs ++ ds) last := by
  induction h with
  | stay n tier => exact h'
  | @change n _ _ _ _ cs rest ih =>
      apply Led.change
      apply ih
      rwa [List.length_cons, Nat.add_comm cs.length, ← Nat.add_assoc] at h'

/-- A path splits at each of its calls. -/
theorem Led.split {env : RouterEnv} {n : ℕ} {tier last : String} {cs ds : List TierChange}
    (h : Led env n tier (cs ++ ds) last) :
    ∃ mid, Led env n tier cs mid ∧ Led env (n + cs.length) mid ds last := by
  induction cs generalizing n tier with
  | nil => exact ⟨tier, .stay n tier, h⟩
  | cons c cs ih =>
      cases h with
      | change rest =>
          obtain ⟨mid, hcs, hds⟩ := ih rest
          refine ⟨mid, .change hcs, ?_⟩
          rwa [List.length_cons, Nat.add_comm cs.length, ← Nat.add_assoc]

theorem Led.head {env : RouterEnv} {n : ℕ} {tier last : String} {c : TierChange}
    {cs : List TierChange} (h : Led env n tier (c :: cs) last) :
    c.previous = tier ∧ c.answer = env.onFallback n c.previous c.next ∧
      Led env (n + 1) c.next cs last := by
  cases h with
  | change rest => exact ⟨rfl, rfl, rest⟩

namespace Ladder

/-- A tier of the names is active. -/
structure Manned (P : String → Prop) (l : Ladder) : Prop where
  vetted : l.Vetted P
  active : P l.active

variable {P : String → Prop} {env : Env} {l l' : Ladder} {a : LadderAction} {asked : List String}

theorem Manned.looks (h : l.Manned P) (hprobes : env.Probes P) (hlooks : Looks env l asked l') :
    l'.Manned P := by
  refine ⟨h.vetted.looks hprobes hlooks, ?_⟩
  rw [hlooks.rest]
  exact h.active

/-- Only `select` can leave a ladder without a tier. -/
theorem Manned.turn (h : l.Manned P) (hprobes : env.Probes P) (hturn : Turn env l a asked l')
    (hselect : a ≠ .select) : l'.Manned P := by
  refine ⟨h.vetted.turn hprobes hturn, ?_⟩
  cases hturn with
  | looked _ hlooks => exact (h.looks hprobes hlooks).active
  | invalidated _ => exact h.active
  | session => exact h.active
  | lost _ => exact absurd rfl hselect
  | moved _ hscan _ _ hactive => exact hactive ▸ (h.vetted.looks hprobes hscan.looks).found hscan
  | @fell fault detail _ _ _ _ _ _ _ _ hscan _ _ _ hactive =>
      exact hactive ▸ ((h.vetted.marked env fault detail).looks hprobes hscan.looks).found hscan
  | kept _ _ _ _ _ hactive => exact hactive ▸ h.active

end Ladder

namespace Router

variable {P : String → Prop} {env : RouterEnv} {r s r' r'' : Router} {l : Ladder}
  {prompt : String} {onToken recovered : Bool} {n : ℕ} {a : Attempt} {action : LadderAction}
  {asked : List String}

theorem tierChanges_concat (log : List RouterEvent) (e : RouterEvent) :
    tierChanges (log ++ [e]) = (e.told (log.foldl RouterEvent.told (false, []))).2 := by
  rw [tierChanges, List.foldl_append]
  rfl

theorem tierChanges_settle (r : Router) (l : Ladder) (recovered : Bool) :
    tierChanges (r.settle l recovered).log = tierChanges r.log := by
  unfold settle
  dsimp only
  split
  · rfl
  · exact tierChanges_concat _ _

/-- What the hook has been told on the way from a router to another: the tier changes that lead from
the active tier of the one to that of the other. -/
structure Told (env : RouterEnv) (P : String → Prop) (r r' : Router) : Prop where
  changes : ∃ cs, tierChanges r'.log = tierChanges r.log ++ cs ∧
    Led env r.hookCalls r.ladder.active cs r'.ladder.active ∧
    r'.hookCalls = r.hookCalls + cs.length
  manned : r.ladder.Manned P → r'.ladder.Manned P
  names : r'.ladder.names = r.ladder.names
  hookSet : r'.hookSet = r.hookSet

theorem Told.trans (h : Told env P r r') (h' : Told env P r' r'') : Told env P r r'' := by
  obtain ⟨cs, hlog, hled, hcalls⟩ := h.changes
  obtain ⟨ds, hlog', hled', hcalls'⟩ := h'.changes
  refine ⟨⟨cs ++ ds, ?_, ?_, ?_⟩, h'.manned ∘ h.manned, h'.names.trans h.names,
    h'.hookSet.trans h.hookSet⟩
  · rw [hlog', hlog, List.append_assoc]
  · rw [hcalls] at hled'
    exact hled.trans hled'
  · rw [hcalls', hcalls, List.length_append, Nat.add_assoc]

/-- Nothing was told where the tier has stayed. -/
theorem Told.of_same (hlog : tierChanges r'.log = tierChanges r.log)
    (hcalls : r'.hookCalls = r.hookCalls) (hactive : r'.ladder.active = r.ladder.active)
    (hmanned : r.ladder.Manned P → r'.ladder.Manned P) (hnames : r'.ladder.names = r.ladder.names)
    (hset : r'.hookSet = r.hookSet) : Told env P r r' := by
  refine ⟨⟨[], ?_, ?_, hcalls⟩, hmanned, hnames, hset⟩
  · rw [List.append_nil]
    exact hlog
  · rw [hactive]
    exact .stay _ _

theorem told_tried (r : Router) (a : Attempt) : Told env P r (r.tried a) :=
  .of_same (tierChanges_concat _ _) rfl rfl id rfl rfl

/-- A call on the ladder that has kept its tier. -/
theorem told_settle (hprobes : env.Probes P) (hturn : Ladder.Turn env.toEnv r.ladder action asked l)
    (hselect : action ≠ .select) (hactive : l.active = r.ladder.active) :
    Told env P r (r.settle l recovered) :=
  .of_same (tierChanges_settle r l recovered) rfl hactive (fun h => h.turn hprobes hturn hselect)
    hturn.names rfl

/-- The hook is told of the tier that has become active. -/
theorem told_callHook (hprobes : env.Probes P) (hset : r.hookSet = true)
    (hset₁ : s.hookSet = r.hookSet)
    (hlog : tierChanges s.log = tierChanges r.log) (hcalls : s.hookCalls = r.hookCalls)
    (hmanned : r.ladder.Manned P → s.ladder.Manned P)
    (hnames : s.ladder.names = r.ladder.names) :
    Told env P r (s.callHook env r.ladder.active s.ladder.active).2 := by
  obtain ⟨asked, hlooks⟩ := looks_hookReads env (env.hookReads s.hookCalls) s.ladder
  unfold callHook
  rw [if_pos (hset₁.trans hset)]
  refine ⟨⟨[⟨r.ladder.active, s.ladder.active, (s.log.foldl RouterEvent.told (false, [])).1,
    env.onFallback s.hookCalls r.ladder.active s.ladder.active⟩], ?_, ?_, ?_⟩, ?_, hlooks.names.trans hnames, hset₁⟩
  · rw [tierChanges_concat, ← hlog]
    rfl
  · have hactive : s.ladder.active =
        ((env.hookReads s.hookCalls).foldl (·.tierState env.toEnv ·) s.ladder).active := by
      rw [hlooks.rest]
    dsimp only
    rw [← hactive, hcalls]
    exact .change (.stay _ _)
  · rw [← hcalls]
    rfl
  · exact fun h => (hmanned h).looks hprobes hlooks

theorem turn_of_reportFault {fault : DeviceFault} {detail : String} {ok : Bool}
    (h : r.ladder.reportFault env.toEnv fault detail = (ok, l)) :
    Ladder.Turn env.toEnv r.ladder (.reportFault fault detail)
      (r.ladder.reportFaultAsked env.toEnv fault detail) l := by
  have hturn := Ladder.turn_reportFault env.toEnv r.ladder fault detail
  rw [h] at hturn
  exact hturn

/-- A fault that takes nothing down. -/
theorem told_reportFault_kept (hprobes : env.Probes P) {fault : DeviceFault} {detail : String}
    (h : r.ladder.reportFault env.toEnv fault detail = (false, l)) :
    Told env P r (r.settle l recovered) :=
  told_settle hprobes (turn_of_reportFault h) nofun (Ladder.reportFault_kept h).1

theorem told_attemptRecovery (hprobes : env.Probes P) (hset : r.hookSet = true) :
    Told env P r (r.attemptRecovery env).2 := by
  have hturn := Ladder.turn_recoverEligibleTier env.toEnv r.ladder
  unfold attemptRecovery
  dsimp only
  split
  · rename_i l hrecover
    rw [hrecover] at hturn
    exact told_settle hprobes hturn nofun (Ladder.recover_kept hrecover).1
  · rename_i l hrecover
    rw [hrecover] at hturn
    have hlogged : ((r.settle l true).logState env).ladder.active = l.active :=
      active_logState (r.settle l true)
    have hup := told_callHook (r := r) (s := (r.settle l true).logState env) hprobes hset
      rfl (tierChanges_settle r l true) rfl
      (fun h => (h.turn hprobes hturn nofun).looks hprobes (Ladder.looks_tierState _ _ _))
      ((Ladder.looks_tierState _ _ _).names.trans hturn.names)
    rw [hlogged] at hup
    split
    · rename_i r' hhook
      rw [hhook] at hup
      exact hup
    · rename_i r' hhook
      have hactive : r'.ladder.active = l.active := (active_callHook hhook).trans hlogged
      have hset' : r'.hookSet = true := by
        have hquiet := quiet_callHook env ((r.settle l true).logState env) r.ladder.active l.active
        rw [hhook] at hquiet
        exact hquiet.hookSet.trans hset
      rw [hhook] at hup
      split
      · rename_i l' hreport
        have hback := told_callHook (r := r') (s := r'.settle l' false) hprobes hset'
          rfl (tierChanges_settle r' l' false) rfl
          (fun h => h.turn hprobes (turn_of_reportFault hreport) nofun) (names_reportFault hreport)
        rw [hactive] at hback
        exact hup.trans hback
      · rename_i l' hreport
        exact hup.trans (told_reportFault_kept hprobes hreport)

/-- A tier has faulted, and the hook is told of the one below. -/
theorem told_next (hprobes : env.Probes P) (hset : r.hookSet = true)
    (htier : a.tier = r.ladder.active) {fault : DeviceFault} {detail : String}
    (hreport : r.ladder.reportFault env.toEnv fault detail = (true, l)) :
    Told env P r ((((r.tried a).settle l false).logState env).callHook env a.tier l.active).2 := by
  have hlogged : (((r.tried a).settle l false).logState env).ladder.active = l.active :=
    active_logState ((r.tried a).settle l false)
  have hdown := told_callHook (r := r.tried a) (s := ((r.tried a).settle l false).logState env)
    hprobes hset rfl (tierChanges_settle (r.tried a) l false) rfl
    (fun h => (h.turn hprobes (turn_of_reportFault hreport) nofun).looks hprobes
      (Ladder.looks_tierState _ _ _))
    ((Ladder.looks_tierState _ _ _).names.trans (names_reportFault hreport))
  rw [hlogged] at hdown
  rw [htier]
  exact (told_tried r a).trans hdown

theorem told_walk (hprobes : env.Probes P) (hset : r.hookSet = true) :
    Told env P r (walk env prompt onToken n r).2 := by
  induction n generalizing r with
  | zero => exact .of_same rfl rfl rfl id rfl rfl
  | succ n ih =>
      have hturned := turned_walk env prompt onToken n r
      have htier : (r.attempt env prompt onToken).tier = r.ladder.active :=
        attempt_tier r prompt onToken
      generalize r.attempt env prompt onToken = a at hturned htier
      generalize Router.walk env prompt onToken (n + 1) r = out at hturned ⊢
      have htried : Told env P r (r.tried a) := told_tried r a
      cases hturned with
      | served hok => exact htried
      | kept hfault hreport =>
          exact htried.trans (told_reportFault_kept (r := r.tried a) hprobes hreport)
      | @refused l r' hfault hreport hhook =>
          have hdown := told_next hprobes hset htier hreport
          rw [hhook] at hdown
          exact hdown
      | @next l r' hfault hreport hhook =>
          have hdown := told_next hprobes hset htier hreport
          rw [hhook] at hdown
          have hquiet := quiet_callHook env (((r.tried a).settle l false).logState env) a.tier l.active
          rw [hhook] at hquiet
          exact hdown.trans (ih (hquiet.hookSet.trans hset))

/-- The calls of a request lead from the tier it finds to the tier it leaves. -/
theorem told_route (hprobes : env.Probes P) (hset : r.hookSet = true)
    (hactive : r.ladder.active.isEmpty = false) :
    Told env P r (r.route env prompt onToken).2 := by
  unfold route routeFrom
  rw [if_neg (Bool.not_eq_true _ ▸ hactive)]
  have hquiet := quiet_attemptRecovery env r
  exact (told_attemptRecovery hprobes hset).trans
    (told_walk hprobes (hquiet.hookSet.trans hset))

end Router

end ServeInfer.Device
