import ServeInfer.Device.StreamContract

/-!
# The walk goes down

After its one attempt to recover, `route` tries tiers of ever larger index, so it tries none
of them twice and its loop ends in one of its returns: the guard on the number of attempts is
never what ends it.
-/

namespace ServeInfer.Device

namespace Router

/-- The loop of `route` by its returns: each turn ends in one of them or falls to the next tier, and
there is no way for the attempts to run out. -/
inductive Settles (env : RouterEnv) (prompt : String) (onToken : Bool) :
    Router → List Attempt → RouteResult × Router → Prop
  | served {r : Router} {a : Attempt} (ha : r.attempt env prompt onToken = a)
      (hok : a.execution.ok = true) :
      Settles env prompt onToken r [a] (served a r.ladder, r.tried a)
  | kept {r : Router} {a : Attempt} {l : Ladder} (ha : r.attempt env prompt onToken = a)
      (hfault : a.execution.ok = false)
      (hreport : r.ladder.reportFault env.toEnv a.execution.fault a.execution.detail = (false, l)) :
      Settles env prompt onToken r [a] (faulted a a.tier l, (r.tried a).settle l false)
  | refused {r r' : Router} {a : Attempt} {l : Ladder} (ha : r.attempt env prompt onToken = a)
      (hfault : a.execution.ok = false)
      (hreport : r.ladder.reportFault env.toEnv a.execution.fault a.execution.detail = (true, l))
      (hhook : (((r.tried a).settle l false).logState env).callHook env a.tier l.active =
        (false, r')) :
      Settles env prompt onToken r [a] (faulted a r'.ladder.active r'.ladder, r')
  | next {r r' : Router} {a : Attempt} {l : Ladder} {as : List Attempt} {out : RouteResult × Router}
      (ha : r.attempt env prompt onToken = a) (hfault : a.execution.ok = false)
      (hreport : r.ladder.reportFault env.toEnv a.execution.fault a.execution.detail = (true, l))
      (hhook : (((r.tried a).settle l false).logState env).callHook env a.tier l.active =
        (true, r'))
      (hrest : Settles env prompt onToken r' as out) : Settles env prompt onToken r (a :: as) out

variable {env : RouterEnv} {r r' : Router} {prompt : String} {onToken : Bool} {as : List Attempt}
  {out : RouteResult × Router} {n : ℕ}

/-- With an attempt for every tier from the active one on, the loop settles. -/
theorem settles_walk (env : RouterEnv) (prompt : String) (onToken : Bool) (n : ℕ) (r : Router)
    (hpos : 0 < n) (hfuel : r.ladder.tiers.length + 1 ≤ n + r.ladder.activeIndex) :
    ∃ as, Settles env prompt onToken r as (walk env prompt onToken n r) := by
  induction n generalizing r with
  | zero => exact absurd hpos (Nat.lt_irrefl 0)
  | succ n ih =>
      have hturn := turned_walk env prompt onToken n r
      generalize ha : r.attempt env prompt onToken = a at hturn
      generalize walk env prompt onToken (n + 1) r = out at hturn
      cases hturn with
      | served hok => exact ⟨_, .served ha hok⟩
      | kept hfault hreport => exact ⟨_, .kept ha hfault hreport⟩
      | refused hfault hreport hhook => exact ⟨_, .refused ha hfault hreport hhook⟩
      | @next l r' hfault hreport hhook =>
          obtain ⟨hquiet, hbelow, hon⟩ := next_spec hreport hhook
          have hcount := hquiet.count
          rw [ladder_tried] at hcount
          obtain ⟨as, hrest⟩ := ih r' (by omega) (by omega)
          exact ⟨_, .next ha hfault hreport hhook hrest⟩

theorem attempt_index (r : Router) (prompt : String) (onToken : Bool) :
    (r.attempt env prompt onToken).index = r.ladder.activeIndex := by
  unfold attempt
  dsimp only
  split <;> rfl

/-- An attempt is a call of `execute` where the tier has an adapter. -/
theorem attempt_call (r : Router) (prompt : String) (onToken : Bool) :
    (r.attempt env prompt onToken).call =
      if r.ladder.active ∈ r.backends then some r.executions else none := by
  unfold attempt
  dsimp only
  split <;> rfl

theorem Settles.attempts (h : Settles env prompt onToken r as out) :
    out.2.attempts = r.attempts ++ as := by
  induction h with
  | @served r a ha hok => exact attempts_tried r a
  | @kept r a l ha hfault hreport =>
      have hquiet := quiet_settle (r.tried a) false (names_reportFault (r := r) hreport)
      exact hquiet.attempts.trans (attempts_tried r a)
  | @refused r r' a l ha hfault hreport hhook =>
      obtain ⟨hquiet, -, -⟩ := next_spec hreport hhook
      exact hquiet.attempts.trans (attempts_tried r a)
  | @next r r' a l as out ha hfault hreport hhook hrest ih =>
      obtain ⟨hquiet, -, -⟩ := next_spec hreport hhook
      rw [ih, hquiet.attempts, attempts_tried, List.append_assoc]
      rfl

/-- The first attempt is on the active tier, and each later one below the one before it. -/
theorem Settles.down (h : Settles env prompt onToken r as out) :
    (∀ a ∈ as, r.ladder.activeIndex ≤ a.index) ∧ (as.map Attempt.index).Pairwise (· < ·) := by
  have hlast : ∀ {r : Router} {a : Attempt}, r.attempt env prompt onToken = a →
      (∀ b ∈ [a], r.ladder.activeIndex ≤ b.index) ∧
        (([a] : List Attempt).map Attempt.index).Pairwise (· < ·) := by
    rintro r _ rfl
    refine ⟨?_, List.pairwise_singleton _ _⟩
    intro b hb
    rw [List.mem_singleton.mp hb, attempt_index]
  induction h with
  | served ha hok => exact hlast ha
  | kept ha hfault hreport => exact hlast ha
  | refused ha hfault hreport hhook => exact hlast ha
  | @next r r' a l as out ha hfault hreport hhook hrest ih =>
      obtain ⟨-, hbelow, -⟩ := next_spec hreport hhook
      have hindex : a.index = r.ladder.activeIndex := ha ▸ attempt_index r prompt onToken
      have hrest : ∀ b ∈ as, a.index < b.index := by
        intro b hb
        have hb := ih.1 b hb
        omega
      constructor
      · intro b hb
        obtain rfl | hb := List.mem_cons.mp hb
        · exact hindex.ge
        · exact hindex.symm.le.trans (hrest b hb).le
      · rw [List.map_cons, List.pairwise_cons]
        exact ⟨List.forall_mem_map.mpr hrest, ih.2⟩

/-- The rule of the attempts: what holds where a turn begins, and where the hook lets the next tier
stand, says of every attempt what it says of one. -/
theorem Settles.forall_mem {H : Router → Prop} {P : Attempt → Prop}
    (hattempt : ∀ s, H s → P (s.attempt env prompt onToken))
    (hnext : ∀ s a l s', H s →
      s.ladder.reportFault env.toEnv a.execution.fault a.execution.detail = (true, l) →
      (((s.tried a).settle l false).logState env).callHook env a.tier l.active = (true, s') → H s')
    (h : Settles env prompt onToken r as out) (hr : H r) : ∀ a ∈ as, P a := by
  induction h with
  | served ha hok => exact List.forall_mem_singleton.mpr (ha ▸ hattempt _ hr)
  | kept ha hfault hreport => exact List.forall_mem_singleton.mpr (ha ▸ hattempt _ hr)
  | refused ha hfault hreport hhook => exact List.forall_mem_singleton.mpr (ha ▸ hattempt _ hr)
  | next ha hfault hreport hhook hrest ih =>
      rw [List.forall_mem_cons]
      exact ⟨ha ▸ hattempt _ hr, ih (hnext _ _ _ _ hr hreport hhook)⟩

/-- `execute` is called on the tiers with an adapter. -/
theorem Settles.adapters (h : Settles env prompt onToken r as out) :
    ∀ a ∈ as, a.call.isSome = true ↔ a.tier ∈ r.backends := by
  refine h.forall_mem (H := fun s => s.backends = r.backends) ?_ ?_ rfl
  · intro s hs
    rw [attempt_call, attempt_tier, hs]
    by_cases hmem : s.ladder.active ∈ r.backends
    · simp [hmem]
    · simp [hmem]
  · intro s a l s' hs hreport hhook
    obtain ⟨hquiet, -, -⟩ := next_spec hreport hhook
    exact hquiet.backends.trans hs

/-- The calls of `execute` are those of the attempts, one after the other. -/
theorem Settles.calls (h : Settles env prompt onToken r as out) :
    as.filterMap Attempt.call = List.range' r.executions (as.filterMap Attempt.call).length ∧
      out.2.executions = r.executions + (as.filterMap Attempt.call).length := by
  have hcall : ∀ {r : Router} {a : Attempt}, r.attempt env prompt onToken = a →
      a.call = none ∨ a.call = some r.executions := by
    rintro r _ rfl
    rw [attempt_call]
    split
    · exact .inr rfl
    · exact .inl rfl
  have hlast : ∀ {r r' : Router} {a : Attempt}, r.attempt env prompt onToken = a →
      r'.executions = (r.tried a).executions →
      [a].filterMap Attempt.call = List.range' r.executions ([a].filterMap Attempt.call).length ∧
        r'.executions = r.executions + ([a].filterMap Attempt.call).length := by
    intro r r' a ha hexecutions
    rw [executions_tried] at hexecutions
    rw [hexecutions]
    rcases hcall ha with hnone | hsome
    · simp [hnone]
    · simp [hsome]
  induction h with
  | served ha hok => exact hlast ha rfl
  | kept ha hfault hreport => exact hlast ha rfl
  | refused ha hfault hreport hhook =>
      obtain ⟨hquiet, -, -⟩ := next_spec hreport hhook
      exact hlast ha hquiet.executions
  | next ha hfault hreport hhook hrest ih =>
      obtain ⟨hquiet, -, -⟩ := next_spec hreport hhook
      rw [hquiet.executions, executions_tried] at ih
      obtain ⟨hrange, hcount⟩ := ih
      rcases hcall ha with hnone | hsome
      · simp only [hnone, Option.isSome_none, Bool.false_eq_true, if_false] at hrange hcount
        simp only [List.filterMap_cons, hnone]
        exact ⟨hrange, hcount⟩
      · simp only [hsome, Option.isSome_some, if_true] at hrange hcount
        simp only [List.filterMap_cons, hsome, List.length_cons, List.range'_succ]
        rw [← hrange]
        exact ⟨rfl, by omega⟩

end Router

namespace Ladder

/-- The tier at the active index is the active one. -/
def OnTier (l : Ladder) : Prop := l.names[l.activeIndex]? = some l.active

variable {env : Env} {l l' : Ladder} {a : LadderAction} {asked : List String}

theorem OnTier.of_names (h : l.OnTier) (hnames : l'.names = l.names)
    (hactive : l'.active = l.active) (hindex : l'.activeIndex = l.activeIndex) : l'.OnTier := by
  rw [OnTier, hnames, hactive, hindex]
  exact h

theorem OnTier.looks (h : l.OnTier) (hlooks : Looks env l asked l') : l'.OnTier := by
  have hrest := hlooks.rest
  refine h.of_names hlooks.names ?_ ?_ <;> rw [hrest]

/-- Only `select` can leave a ladder without a tier. -/
theorem OnTier.turn (h : l.OnTier) (hturn : Turn env l a asked l') (ha : a ≠ .select) :
    l'.OnTier := by
  cases hturn with
  | looked _ hlooks => exact h.looks hlooks
  | invalidated _ => exact h.of_names (names_invalidateProbeCache l) rfl rfl
  | session => exact h.of_names (names_beginSession l) rfl rfl
  | lost => exact absurd rfl ha
  | moved _ hscan hsame hindex hactive =>
      rw [OnTier, hindex, hactive, hsame.names]
      exact hscan.name
  | fell _ _ hscan _ hsame hindex hactive =>
      rw [OnTier, hindex, hactive, hsame.names]
      exact hscan.name
  | kept _ _ hscan hsame hindex hactive =>
      have hnames := hsame.names.trans (hscan.looks.names.trans (names_marked l _ _))
      exact h.of_names hnames hactive hindex

theorem onTier_select (h : l.select env = (true, l')) : l'.OnTier := by
  rcases select_cases env l with ⟨j, tier, s, -, hscan, heq⟩ | ⟨s, -, -, heq⟩
  · rw [h] at heq
    obtain rfl := (Prod.mk.inj heq).2
    rw [OnTier, (sameTiers_activate s j tier).names, activate_eq]
    exact hscan.name
  · rw [h] at heq
    cases heq

end Ladder

namespace Router

variable {env : RouterEnv} {r r' : Router} {l : Ladder} {prompt previous next : String}
  {onToken : Bool} {as : List Attempt} {out : RouteResult × Router}

theorem onTier_settle (recovered : Bool) (h : l.OnTier) :
    (r.settle l recovered).ladder.OnTier := h

theorem onTier_logState (env : RouterEnv) (h : r.ladder.OnTier) : (r.logState env).ladder.OnTier :=
  h.looks (Ladder.looks_tierState env.toEnv r.ladder r.ladder.activeIndex)

theorem onTier_routerSelect (h : r.select env = (true, r')) : r'.ladder.OnTier := by
  unfold select at h
  split at h
  · cases h
  · rename_i l heq
    cases h
    exact onTier_logState env (onTier_settle false (Ladder.onTier_select heq))

theorem onTier_callHook {answer : Bool} (h : r.ladder.OnTier)
    (heq : r.callHook env previous next = (answer, r')) : r'.ladder.OnTier := by
  obtain ⟨asked, hlooks⟩ := looks_callHook env r previous next
  rw [heq] at hlooks
  exact h.looks hlooks

theorem onTier_reportFault {fault : DeviceFault} {detail : String} {ok : Bool}
    (h : r.ladder.OnTier) (heq : r.ladder.reportFault env.toEnv fault detail = (ok, l)) :
    l.OnTier := by
  have hturn := Ladder.turn_reportFault env.toEnv r.ladder fault detail
  rw [heq] at hturn
  exact h.turn hturn (by rintro ⟨⟩)

theorem onTier_attemptRecovery (env : RouterEnv) (h : r.ladder.OnTier) :
    (r.attemptRecovery env).2.ladder.OnTier := by
  have hturn := Ladder.turn_recoverEligibleTier env.toEnv r.ladder
  unfold attemptRecovery
  dsimp only
  split
  · rename_i l heq
    rw [heq] at hturn
    exact h.turn hturn (by rintro ⟨⟩)
  · rename_i l heq
    rw [heq] at hturn
    have hmoved : l.OnTier := h.turn hturn (by rintro ⟨⟩)
    have hlogged := onTier_logState env (onTier_settle (r := r) true hmoved)
    split
    · rename_i r' hhook
      exact onTier_callHook hlogged hhook
    · rename_i r' hhook
      have hrefused := onTier_callHook hlogged hhook
      split
      · rename_i l' hreport
        exact onTier_callHook (r := r'.settle l' false)
          (onTier_reportFault hrefused hreport) rfl
      · rename_i l' hreport
        exact onTier_reportFault hrefused hreport

/-- Every attempt is on the tier of the ladder at its index. -/
theorem Settles.tiers (h : Settles env prompt onToken r as out) (hon : r.ladder.OnTier) :
    ∀ a ∈ as, r.ladder.names[a.index]? = some a.tier := by
  refine h.forall_mem (H := fun s => s.ladder.OnTier ∧ s.ladder.names = r.ladder.names) ?_ ?_
    ⟨hon, rfl⟩
  · rintro s ⟨hs, hnames⟩
    rw [attempt_index, attempt_tier, ← hnames]
    exact hs
  · rintro s a l s' ⟨hs, hnames⟩ hreport hhook
    obtain ⟨hquiet, -, -⟩ := next_spec hreport hhook
    have hmoved : l.OnTier := onTier_reportFault hs hreport
    have hlogged := onTier_logState env (onTier_settle (r := s.tried a) false hmoved)
    exact ⟨onTier_callHook hlogged hhook, hquiet.names.trans hnames⟩

/-- The router on which the loop of `route` starts: after the selection, where no tier was active,
and the one attempt to recover. -/
def loopStart (env : RouterEnv) (r : Router) : Option Router :=
  if r.ladder.active.isEmpty then
    match r.select env with
    | (false, _) => none
    | (true, s) => some (s.attemptRecovery env).2
  else some (r.attemptRecovery env).2

/-- The attempts of a call of `route`: on tiers of the ladder of ever larger index, with one call of
`execute` for each that has an adapter; and the loop has settled. -/
structure WalksDown (env : RouterEnv) (prompt : String) (onToken : Bool) (r : Router)
    (out : RouteResult × Router) (as : List Attempt) : Prop where
  attempts : out.2.attempts = r.attempts ++ as
  tiers : ∀ a ∈ as, r.ladder.names[a.index]? = some a.tier
  down : (as.map Attempt.index).Pairwise (· < ·)
  adapters : ∀ a ∈ as, a.call.isSome = true ↔ a.tier ∈ r.backends
  calls : as.filterMap Attempt.call = List.range' r.executions (as.filterMap Attempt.call).length
  executions : out.2.executions = r.executions + (as.filterMap Attempt.call).length
  settles : (r.loopStart env).elim (as = []) fun s => Settles env prompt onToken s as out

/-- From where a tier is active, the loop walks down. -/
theorem walksDown_routeFrom (env : RouterEnv) (prompt : String) (onToken : Bool)
    (hquiet : Quiet r r') (hon : r'.ladder.OnTier)
    (hstart : r.loopStart env = some (r'.attemptRecovery env).2) :
    ∃ as, WalksDown env prompt onToken r (r'.routeFrom env prompt onToken) as := by
  have hall := hquiet.trans (quiet_attemptRecovery env r')
  have hrecovered := onTier_attemptRecovery env hon
  obtain ⟨as, hsettles⟩ := settles_walk env prompt onToken _ (r'.attemptRecovery env).2
    (Nat.succ_pos _) (Nat.le_add_right _ _)
  refine ⟨as, ?_⟩
  have hcalls := hsettles.calls
  have htiers := hsettles.tiers hrecovered
  have hadapters := hsettles.adapters
  have hattempts := hsettles.attempts
  rw [hall.executions] at hcalls
  rw [hall.names] at htiers
  rw [hall.backends] at hadapters
  rw [hall.attempts] at hattempts
  refine ⟨hattempts, htiers, hsettles.down.2, hadapters, hcalls.1, hcalls.2, ?_⟩
  rw [hstart]
  exact hsettles

/-- In every reachable router, with any adapters, faults and hook, `route` walks down its ladder and
settles. -/
theorem route_walks_down (env : RouterEnv) {order : List String} {quarantineMs probeIntervalMs : ℤ}
    {actions : List RouterAction} {r : Router}
    (hexec : Machine.exec (step env) (.ofOrder order quarantineMs probeIntervalMs) actions = some r)
    (prompt : String) (onToken : Bool) :
    ∃ as, WalksDown env prompt onToken r (r.route env prompt onToken) as := by
  have hseated : r.ladder.Seated :=
    ladder_of_exec (fun _ _ _ _ h hturn => h.turn hturn)
      (Ladder.seated_ofOrder order quarantineMs probeIntervalMs) hexec
  cases hactive : r.ladder.active.isEmpty with
  | false =>
      have hroute : r.route env prompt onToken = r.routeFrom env prompt onToken := by
        rw [route, hactive]
        rfl
      rw [hroute]
      apply walksDown_routeFrom env prompt onToken (.refl r) (hseated hactive)
      rw [loopStart, hactive]
      rfl
  | true =>
      have hquiet := quiet_select env r
      cases hselect : r.select env with
      | mk selected s =>
          rw [hselect] at hquiet
          cases selected with
          | false =>
              have hroute : r.route env prompt onToken =
                  ({ fault := .unavailable, detail := "no usable tier in the ladder" }, s) := by
                rw [route, hactive, hselect]
                rfl
              rw [hroute]
              refine ⟨[], ?_, by simp, by simp, by simp, rfl, hquiet.executions, ?_⟩
              · rw [List.append_nil]
                exact hquiet.attempts
              · rw [loopStart, hactive, hselect]
                rfl
          | true =>
              have hroute : r.route env prompt onToken = s.routeFrom env prompt onToken := by
                rw [route, hactive, hselect]
                rfl
              rw [hroute]
              apply walksDown_routeFrom env prompt onToken hquiet (onTier_routerSelect hselect)
              rw [loopStart, hactive, hselect]
              rfl

/-- Cuda faults in the middle, and the walk goes on to cpu. -/
theorem route_walks_down_cudaFaults : ∃ as, WalksDown cudaFaults "prompt" true
    { Router.ofOrder ["cuda", "cpu"] 60000 0 with backends := ["cpu", "cuda"] }
    (({ Router.ofOrder ["cuda", "cpu"] 60000 0 with backends := ["cpu", "cuda"] } : Router).route
      cudaFaults "prompt" true) as :=
  @route_walks_down cudaFaults ["cuda", "cpu"] 60000 0
    [.registerBackend "cuda", .registerBackend "cpu"] _ (by decide) "prompt" true

end Router

end ServeInfer.Device
