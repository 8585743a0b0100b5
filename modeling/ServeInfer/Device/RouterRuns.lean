import ServeInfer.Device.Router

/-!
# Runs of the router

What each method of the router does besides its calls on the ladder: which of
them try a tier, and what they write to the log.
-/

namespace ServeInfer.Device

namespace Router

variable {env : RouterEnv} {r r' r'' : Router} {l : Ladder} {prompt previous next : String}
  {onToken recovered : Bool} {n : ℕ} {a : Attempt}

/-- The tiers tried, in order. -/
def RouterEvent.attempt? : RouterEvent → Option Attempt
  | .tried a => some a
  | _ => none

/-- The attempts of the log. -/
def attempts (r : Router) : List Attempt := r.log.filterMap RouterEvent.attempt?

/-- No tier is tried: no adapter is called and nothing reaches the sink. -/
structure Quiet (r r' : Router) : Prop where
  backends : r'.backends = r.backends
  hookSet : r'.hookSet = r.hookSet
  executions : r'.executions = r.executions
  streamed : r'.streamed = r.streamed
  attempts : r'.attempts = r.attempts
  names : r'.ladder.names = r.ladder.names

theorem Quiet.refl (r : Router) : Quiet r r := ⟨rfl, rfl, rfl, rfl, rfl, rfl⟩

theorem Quiet.trans (h : Quiet r r') (h' : Quiet r' r'') : Quiet r r'' :=
  ⟨h'.backends.trans h.backends, h'.hookSet.trans h.hookSet, h'.executions.trans h.executions,
    h'.streamed.trans h.streamed, h'.attempts.trans h.attempts, h'.names.trans h.names⟩

theorem Quiet.count (h : Quiet r r') : r'.ladder.tiers.length = r.ladder.tiers.length := by
  have hlen := congrArg List.length h.names
  rwa [Ladder.names, Ladder.names, List.length_map, List.length_map] at hlen

theorem quiet_settle (r : Router) (recovered : Bool) (hnames : l.names = r.ladder.names) :
    Quiet r (r.settle l recovered) := by
  refine ⟨rfl, rfl, rfl, rfl, ?_, hnames⟩
  unfold attempts settle
  dsimp only
  split
  · rfl
  · rw [List.filterMap_append]
    exact List.append_nil _

theorem quiet_logState (env : RouterEnv) (r : Router) : Quiet r (r.logState env) :=
  ⟨rfl, rfl, rfl, rfl, rfl, (Ladder.looks_tierState _ _ _).names⟩

theorem quiet_logLadder (r : Router) : Quiet r (r.logLadder env) :=
  ⟨rfl, rfl, rfl, rfl, rfl, (Ladder.looks_toJson _).names⟩

/-- Reading tier states is looking. -/
theorem looks_hookReads (env : RouterEnv) (reads : List ℕ) (l : Ladder) :
    ∃ asked, Ladder.Looks env.toEnv l asked (reads.foldl (·.tierState env.toEnv ·) l) := by
  induction reads generalizing l with
  | nil => exact ⟨[], .refl l⟩
  | cons i reads ih =>
      obtain ⟨asked, h⟩ := ih (l.tierState env.toEnv i)
      exact ⟨_, (Ladder.looks_tierState _ l i).trans h⟩

theorem looks_callHook (env : RouterEnv) (r : Router) (previous next : String) :
    ∃ asked, Ladder.Looks env.toEnv r.ladder asked (r.callHook env previous next).2.ladder := by
  unfold callHook
  split
  · exact looks_hookReads _ _ _
  · exact ⟨[], .refl _⟩

theorem active_logState (r : Router) : (r.logState env).ladder.active = r.ladder.active := by
  have hlooks := Ladder.looks_tierState env.toEnv r.ladder r.ladder.activeIndex
  have hactive : (r.ladder.tierState env.toEnv r.ladder.activeIndex).active = r.ladder.active := by
    rw [hlooks.rest]
  exact hactive

theorem active_callHook {answer : Bool} (heq : r.callHook env previous next = (answer, r')) :
    r'.ladder.active = r.ladder.active := by
  obtain ⟨asked, hlooks⟩ := looks_callHook env r previous next
  rw [heq] at hlooks
  rw [hlooks.rest]

theorem quiet_callHook (env : RouterEnv) (r : Router) (previous next : String) :
    Quiet r (r.callHook env previous next).2 := by
  obtain ⟨asked, hlooks⟩ := looks_callHook env r previous next
  have hnames := hlooks.names
  unfold callHook at hnames ⊢
  split at hnames
  · rename_i hset
    rw [if_pos hset]
    refine ⟨rfl, rfl, rfl, rfl, ?_, hnames⟩
    rw [attempts, List.filterMap_append]
    exact List.append_nil _
  · rename_i hset
    rw [if_neg hset]
    exact .refl r

theorem quiet_select (env : RouterEnv) (r : Router) : Quiet r (r.select env).2 := by
  have hnames := (Ladder.turn_select env.toEnv r.ladder).names
  unfold select
  split
  · rename_i l heq
    rw [heq] at hnames
    exact (quiet_settle r false hnames).trans (quiet_logLadder _)
  · rename_i l heq
    rw [heq] at hnames
    exact (quiet_settle r false hnames).trans (quiet_logState _ _)

theorem names_reportFault {fault : DeviceFault} {detail : String} {ok : Bool}
    (h : r.ladder.reportFault env.toEnv fault detail = (ok, l)) : l.names = r.ladder.names := by
  have hnames := (Ladder.turn_reportFault env.toEnv r.ladder fault detail).names
  rw [h] at hnames
  exact hnames

theorem quiet_attemptRecovery (env : RouterEnv) (r : Router) : Quiet r (r.attemptRecovery env).2 := by
  have hnames := (Ladder.turn_recoverEligibleTier env.toEnv r.ladder).names
  unfold attemptRecovery
  dsimp only
  split
  · rename_i l heq
    rw [heq] at hnames
    exact quiet_settle r true hnames
  · rename_i l heq
    rw [heq] at hnames
    have hmoved := (quiet_settle r true hnames).trans (quiet_logState env _)
    have hhook := quiet_callHook env ((r.settle l true).logState env) r.ladder.active
      l.active
    split
    · rename_i r' heq'
      rw [heq'] at hhook
      exact hmoved.trans hhook
    · rename_i r' heq'
      rw [heq'] at hhook
      split
      · rename_i l' hfault
        have hback := quiet_settle r' false (names_reportFault hfault)
        exact ((hmoved.trans hhook).trans hback).trans (quiet_callHook _ _ _ _)
      · rename_i l' hfault
        exact (hmoved.trans hhook).trans (quiet_settle r' false (names_reportFault hfault))

/-- The result of a turn that served the request. -/
def served (a : Attempt) (l : Ladder) : RouteResult where
  text := a.execution.text
  device := a.tier
  degraded := l.degraded
  degradedReason := l.degradedReason

/-- The result of a turn that ends the walk with its fault. -/
def faulted (a : Attempt) (device : String) (l : Ladder) : RouteResult where
  text := a.execution.text
  device := device
  fault := a.execution.fault
  detail := a.execution.detail
  degraded := l.degraded
  degradedReason := l.degradedReason

/-- The ends of one turn of the loop: the tier serves; it faults and nothing takes over; the hook
refuses the tier that takes over; or the walk goes on there. -/
inductive Turned (env : RouterEnv) (prompt : String) (onToken : Bool) (n : ℕ) (r : Router)
    (a : Attempt) : RouteResult × Router → Prop
  | served (hok : a.execution.ok = true) :
      Turned env prompt onToken n r a (served a r.ladder, r.tried a)
  | kept {l : Ladder} (hfault : a.execution.ok = false)
      (hreport : r.ladder.reportFault env.toEnv a.execution.fault a.execution.detail = (false, l)) :
      Turned env prompt onToken n r a (faulted a a.tier l, (r.tried a).settle l false)
  | refused {l : Ladder} {r' : Router} (hfault : a.execution.ok = false)
      (hreport : r.ladder.reportFault env.toEnv a.execution.fault a.execution.detail = (true, l))
      (hhook : (((r.tried a).settle l false).logState env).callHook env a.tier l.active = (false, r')) :
      Turned env prompt onToken n r a (faulted a r'.ladder.active r'.ladder, r')
  | next {l : Ladder} {r' : Router} (hfault : a.execution.ok = false)
      (hreport : r.ladder.reportFault env.toEnv a.execution.fault a.execution.detail = (true, l))
      (hhook : (((r.tried a).settle l false).logState env).callHook env a.tier l.active = (true, r')) :
      Turned env prompt onToken n r a (walk env prompt onToken n r')

theorem turned_walk (env : RouterEnv) (prompt : String) (onToken : Bool) (n : ℕ) (r : Router) :
    Turned env prompt onToken n r (r.attempt env prompt onToken)
      (walk env prompt onToken (n + 1) r) := by
  rw [walk]
  cases hok : (r.attempt env prompt onToken).execution.ok with
  | true =>
      rw [if_pos rfl]
      exact .served hok
  | false =>
      rw [if_neg Bool.false_ne_true]
      split
      · rename_i l hreport
        exact .kept hok hreport
      · rename_i l hreport
        split
        · rename_i r' hhook
          exact .refused hok hreport hhook
        · rename_i r' hhook
          exact .next hok hreport hhook

@[simp] theorem ladder_tried (r : Router) (a : Attempt) : (r.tried a).ladder = r.ladder := rfl

@[simp] theorem attempts_tried (r : Router) (a : Attempt) :
    (r.tried a).attempts = r.attempts ++ [a] := by
  rw [attempts, tried, List.filterMap_append]
  rfl

theorem attempt_tier (r : Router) (prompt : String) (onToken : Bool) :
    (r.attempt env prompt onToken).tier = r.ladder.active := by
  unfold attempt
  dsimp only
  split <;> rfl

/-- A property of routers that the calls on the ladder, the looks of the log lines and the calls of
the hook all keep. -/
structure Kept (env : RouterEnv) (P : Router → Prop) : Prop where
  settle : ∀ {r a asked l}, P r → Ladder.Turn env.toEnv r.ladder a asked l →
    P (r.settle l (a = .recoverEligibleTier))
  looked : ∀ {r asked l}, P r → Ladder.Looks env.toEnv r.ladder asked l → P { r with ladder := l }
  hooked : ∀ {r} previous next answer, P r → r.hookSet = true →
    P { r with hookCalls := r.hookCalls + 1, log := r.log ++ [.hooked previous next answer] }

variable {P H : Router → Prop}

theorem Kept.logState (hP : Kept env P) (h : P r) : P (r.logState env) :=
  hP.looked h (Ladder.looks_tierState _ _ _)

theorem Kept.callHook (hP : Kept env P) (h : P r) (previous next : String) :
    P (r.callHook env previous next).2 := by
  unfold Router.callHook
  split
  · rename_i hset
    obtain ⟨asked, hlooks⟩ := looks_hookReads env (env.hookReads r.hookCalls) r.ladder
    exact hP.looked (hP.hooked previous next _ h hset) hlooks
  · exact h

theorem Kept.reportFault (hP : Kept env P) (h : P r) {fault : DeviceFault} {detail : String}
    {ok : Bool} (heq : r.ladder.reportFault env.toEnv fault detail = (ok, l)) :
    P (r.settle l false) := by
  have hturn := Ladder.turn_reportFault env.toEnv r.ladder fault detail
  rw [heq] at hturn
  exact hP.settle h hturn

theorem Kept.select (hP : Kept env P) (h : P r) : P (r.select env).2 := by
  have hturn := Ladder.turn_select env.toEnv r.ladder
  unfold Router.select
  split
  · rename_i l heq
    rw [heq] at hturn
    exact hP.looked (hP.settle h hturn) (Ladder.looks_toJson l)
  · rename_i l heq
    rw [heq] at hturn
    exact hP.logState (hP.settle h hturn)

theorem Kept.attemptRecovery (hP : Kept env P) (h : P r) : P (r.attemptRecovery env).2 := by
  have hturn := Ladder.turn_recoverEligibleTier env.toEnv r.ladder
  unfold Router.attemptRecovery
  dsimp only
  split
  · rename_i l heq
    rw [heq] at hturn
    exact hP.settle h hturn
  · rename_i l heq
    rw [heq] at hturn
    have hmoved : P (r.settle l true) := hP.settle h hturn
    have hhook := hP.callHook (hP.logState hmoved) r.ladder.active l.active
    split
    · rename_i r' heq'
      rw [heq'] at hhook
      exact hhook
    · rename_i r' heq'
      rw [heq'] at hhook
      split
      · rename_i l' hreport
        exact hP.callHook (hP.reportFault hhook hreport) _ _
      · rename_i l' hreport
        exact hP.reportFault hhook hreport

/-- The rule of the walk: what holds where a turn begins lets the turn keep the property, and holds
again where the hook let the next tier stand. -/
theorem Kept.walk (hP : Kept env P)
    (htried : ∀ r, P r → H r → P (r.tried (r.attempt env prompt onToken)))
    (hnext : ∀ r previous next r', P r → r.ladder.active = next →
      r.callHook env previous next = (true, r') → H r')
    (h : P r) (hhead : H r) : P (walk env prompt onToken n r).2 := by
  induction n generalizing r with
  | zero => exact h
  | succ n ih =>
      have hturn := turned_walk env prompt onToken n r
      have hafter := htried r h hhead
      generalize r.attempt env prompt onToken = a at hturn hafter
      generalize Router.walk env prompt onToken (n + 1) r = out at hturn ⊢
      cases hturn with
      | served hok => exact hafter
      | kept hfault hreport => exact hP.reportFault (r := r.tried a) hafter hreport
      | @refused l r' hfault hreport hhook =>
          have hmoved := hP.logState (hP.reportFault (r := r.tried a) hafter hreport)
          have hgood := hP.callHook hmoved a.tier l.active
          rw [hhook] at hgood
          exact hgood
      | @next l r' hfault hreport hhook =>
          have hmoved := hP.logState (hP.reportFault (r := r.tried a) hafter hreport)
          have hgood := hP.callHook hmoved a.tier l.active
          rw [hhook] at hgood
          exact ih hgood (hnext _ _ _ _ hmoved (active_logState _) hhook)

theorem Kept.routeFrom (hP : Kept env P) (htried : ∀ r a, P r → P (r.tried a)) (h : P r) :
    P (r.routeFrom env prompt onToken).2 :=
  hP.walk (H := fun _ => True) (fun r h _ => htried r _ h) (fun _ _ _ _ _ _ _ => trivial)
    (hP.attemptRecovery h) trivial

theorem Kept.route (hP : Kept env P) (htried : ∀ r a, P r → P (r.tried a)) (h : P r) :
    P (r.route env prompt onToken).2 := by
  have hselect := hP.select h
  unfold Router.route
  split
  · split
    · rename_i heq
      rw [heq] at hselect
      exact hselect
    · rename_i heq
      rw [heq] at hselect
      exact hP.routeFrom htried hselect
  · exact hP.routeFrom htried h

section Ladder

variable {Q : Ladder → Prop} {action : RouterAction}

/-- What every call on the ladder keeps, the router's calls on it keep. -/
theorem kept_of_turn
    (hQ : ∀ l a asked l', Q l → Ladder.Turn env.toEnv l a asked l' → Q l') :
    Kept env fun r => Q r.ladder where
  settle h hturn := hQ _ _ _ _ h hturn
  looked h hlooks := hQ _ .toJson _ _ h (.looked rfl hlooks)
  hooked _ _ _ h _ := h

theorem ladder_of_step (hQ : ∀ l a asked l', Q l → Ladder.Turn env.toEnv l a asked l' → Q l')
    (h : Q r.ladder) (hstep : r.step env action = some r') : Q r'.ladder := by
  have hkept := kept_of_turn hQ
  cases action with
  | registerBackend name =>
      cases hstep
      exact hQ _ _ _ _ h (.invalidated (a := .invalidateProbeCache) rfl)
  | setFallbackHook isSet =>
      cases hstep
      exact h
  | select =>
      cases hstep
      exact hkept.select h
  | beginSession =>
      cases hstep
      exact hQ _ _ _ _ h .session
  | attemptRecovery =>
      cases hstep
      exact hkept.attemptRecovery h
  | route prompt onToken =>
      cases hstep
      exact hkept.route (fun _ _ h => h) h
  | ladder a =>
      obtain ⟨l, hl, rfl⟩ := Option.map_eq_some_iff.mp hstep
      exact hQ _ _ _ _ h (Ladder.turn_of_step hl)

/-- What holds of the ladder as it is built, and is kept by every call on it, holds of it in every
reachable router. -/
theorem ladder_of_exec {order : List String} {quarantineMs probeIntervalMs : ℤ}
    {actions : List RouterAction}
    (hQ : ∀ l a asked l', Q l → Ladder.Turn env.toEnv l a asked l' → Q l')
    (h : Q (.ofOrder order quarantineMs probeIntervalMs))
    (hexec : Machine.exec (step env) (.ofOrder order quarantineMs probeIntervalMs) actions =
      some r) : Q r.ladder :=
  Machine.exec_invariant (P := fun r : Router => Q r.ladder) h
    (fun _ _ _ h hstep => ladder_of_step hQ h hstep) hexec

end Ladder

end Router

end ServeInfer.Device
