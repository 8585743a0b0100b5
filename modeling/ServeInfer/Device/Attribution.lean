import ServeInfer.Device.BroughtUp
import ServeInfer.Device.StreamContract

/-!
# The tier a result names

Text, fault and detail of a result are always those of the last tier tried. So is
the device, unless the hook refuses the tier the ladder has moved down to: then the
result keeps the fault of the tier that ran and names the one that did not.
-/

namespace ServeInfer.Device

/-- The attempt has produced the result, and the tier it ran on is the one that the result names and
the router stands on, from where the worker's result frame takes its device. -/
structure Credits (out : RouteResult × Router) (last : Attempt) : Prop where
  device : out.1.device = last.tier
  active : out.2.ladder.active = last.tier
  text : out.1.text = last.execution.text
  fault : out.1.fault = last.execution.fault
  detail : out.1.detail = if last.execution.ok then "" else last.execution.detail

namespace Router

variable (env : RouterEnv)

/-- The result of the call names the tier of the call's last attempt, if it has tried one. -/
def Attributed (r : Router) (prompt : String) (onToken : Bool) : Prop :=
  ∃ as, (r.route env prompt onToken).2.attempts = r.attempts ++ as ∧
    ∀ last ∈ as.getLast?, Credits (r.route env prompt onToken) last

/-- The hook lets the moves of the walk stand: where a tier faults and the ladder falls to one of
another name, it answers yes. -/
def movesStand (prompt : String) (onToken : Bool) : ℕ → Router → Bool
  | 0, _ => true
  | attempts + 1, r =>
      let a := r.attempt env prompt onToken
      let r := r.tried a
      a.execution.ok ||
        match r.ladder.reportFault env.toEnv a.execution.fault a.execution.detail with
        | (false, _) => true
        | (true, l) =>
            match ((r.settle l false).logState env).callHook env a.tier l.active with
            | (false, _) => l.active = a.tier
            | (true, r) => movesStand prompt onToken attempts r

/-- The hook lets the moves of the call stand, from where a tier is active. -/
def movesStandFrom (r : Router) (prompt : String) (onToken : Bool) : Bool :=
  let r := (r.attemptRecovery env).2
  movesStand env prompt onToken (r.ladder.tiers.length + 1) r

/-- The calls in which the hook refuses no move down to a tier of another name. -/
def routeStands (r : Router) : RouterAction → Bool
  | .route prompt onToken =>
      if r.ladder.active.isEmpty then
        match r.select env with
        | (false, _) => true
        | (true, r) => r.movesStandFrom env prompt onToken
      else r.movesStandFrom env prompt onToken
  | _ => true

variable {env} {r r' : Router} {l : Ladder} {prompt : String} {onToken : Bool} {n : ℕ} {a : Attempt}

theorem fault_of_ok (h : a.execution.ok = true) : a.execution.fault = .none := of_decide_eq_true h

/-- The tier on which the hook leaves the router is the one the ladder has fallen to. -/
theorem active_of_hook {answer : Bool} (recovered : Bool)
    (h : ((r.settle l recovered).logState env).callHook env a.tier l.active = (answer, r')) :
    r'.ladder.active = l.active := by
  rw [active_callHook h]
  exact active_logState (r.settle l recovered)

/-- A walk ends with an attempt that has produced its result, and which it names exactly where the
hook let the moves stand. -/
theorem credits_walk (env : RouterEnv) (prompt : String) (onToken : Bool) (n : ℕ) (r : Router)
    (hpos : 0 < n) (hfuel : r.ladder.tiers.length + 1 ≤ n + r.ladder.activeIndex) :
    ∃ as last, (walk env prompt onToken n r).2.attempts = r.attempts ++ (as ++ [last]) ∧
      (Credits (walk env prompt onToken n r) last ↔
        movesStand env prompt onToken n r = true) := by
  induction n generalizing r with
  | zero => exact absurd hpos (Nat.lt_irrefl 0)
  | succ n ih =>
      have hturn := turned_walk env prompt onToken n r
      have htier := @attempt_tier env r prompt onToken
      rw [movesStand]
      generalize r.attempt env prompt onToken = a at hturn htier
      generalize walk env prompt onToken (n + 1) r = out at hturn
      cases hturn with
      | served hok =>
          refine ⟨[], a, attempts_tried r a, ?_⟩
          rw [hok]
          refine iff_of_true ⟨rfl, htier.symm, rfl, (fault_of_ok hok).symm, ?_⟩ rfl
          rw [if_pos hok]
          rfl
      | kept hfault hreport =>
          have hquiet := quiet_settle (r.tried a) false (names_reportFault (r := r) hreport)
          refine ⟨[], a, hquiet.attempts.trans (attempts_tried r a), ?_⟩
          rw [ladder_tried, hreport, hfault]
          refine iff_of_true ⟨rfl, ?_, rfl, rfl, ?_⟩ rfl
          · exact (Ladder.reportFault_kept hreport).1.trans htier.symm
          · rw [if_neg (Bool.eq_false_iff.mp hfault)]
            rfl
      | @refused l r' hfault hreport hhook =>
          obtain ⟨hquiet, -, -⟩ := next_spec hreport hhook
          have hactive : r'.ladder.active = l.active := active_of_hook false hhook
          refine ⟨[], a, hquiet.attempts.trans (attempts_tried r a), ?_⟩
          rw [ladder_tried, hreport, hfault]
          dsimp only
          rw [hhook, Bool.false_or, decide_eq_true_iff]
          constructor
          · intro hcredits
            exact hactive.symm.trans hcredits.active
          · intro hsame
            refine ⟨hactive.trans hsame, hactive.trans hsame, rfl, rfl, ?_⟩
            rw [if_neg (Bool.eq_false_iff.mp hfault)]
            rfl
      | @next l r' hfault hreport hhook =>
          obtain ⟨hquiet, hbelow, hon⟩ := next_spec hreport hhook
          have hcount := hquiet.count
          rw [ladder_tried] at hcount
          obtain ⟨as, last, hattempts, hcredits⟩ := ih r' (by omega) (by omega)
          refine ⟨a :: as, last, ?_, ?_⟩
          · rw [hattempts, hquiet.attempts, attempts_tried]
            simp
          · rw [ladder_tried, hreport, hfault]
            dsimp only
            rw [hhook, Bool.false_or]
            exact hcredits

theorem credits_routeFrom (env : RouterEnv) (prompt : String) (onToken : Bool) (r : Router) :
    ∃ as last, (r.routeFrom env prompt onToken).2.attempts = r.attempts ++ (as ++ [last]) ∧
      (Credits (r.routeFrom env prompt onToken) last ↔
        r.movesStandFrom env prompt onToken = true) := by
  have hquiet := quiet_attemptRecovery env r
  have hwalk := credits_walk env prompt onToken _ (r.attemptRecovery env).2 (Nat.succ_pos _)
    (Nat.le_add_right _ _)
  rw [hquiet.attempts] at hwalk
  exact hwalk

/-- The last attempt of the call settles whether its result is attributed. -/
theorem attributed_of_last {as : List Attempt} {last : Attempt} {stands : Bool}
    (hattempts : (r.route env prompt onToken).2.attempts = r.attempts ++ (as ++ [last]))
    (hcredits : Credits (r.route env prompt onToken) last ↔ stands = true) :
    r.Attributed env prompt onToken ↔ stands = true := by
  rw [← hcredits]
  constructor
  · rintro ⟨bs, hbs, hlast⟩
    obtain rfl := List.append_cancel_left (hattempts.symm.trans hbs)
    exact hlast last List.getLast?_concat
  · intro h
    refine ⟨as ++ [last], hattempts, ?_⟩
    intro b hb
    rw [List.getLast?_concat, Option.mem_some_iff] at hb
    exact hb ▸ h

/-- From any state of the ladder, with any faults and any hook. -/
theorem attributed_iff (env : RouterEnv) (prompt : String) (onToken : Bool) (r : Router) :
    r.Attributed env prompt onToken ↔ r.routeStands env (.route prompt onToken) = true := by
  rw [routeStands]
  cases hempty : r.ladder.active.isEmpty with
  | false =>
      obtain ⟨as, last, hattempts, hcredits⟩ := credits_routeFrom env prompt onToken r
      have hroute : r.route env prompt onToken = r.routeFrom env prompt onToken := by
        rw [route, hempty, if_neg Bool.false_ne_true]
      rw [← hroute] at hattempts hcredits
      exact attributed_of_last hattempts hcredits
  | true =>
      have hquiet := quiet_select env r
      cases hselect : r.select env with
      | mk found r₀ =>
          rw [hselect] at hquiet
          cases found with
          | false =>
              have hroute : (r.route env prompt onToken).2 = r₀ := by
                rw [route, hempty, if_pos rfl, hselect]
              refine iff_of_true ⟨[], ?_, ?_⟩ rfl
              · rw [hroute, List.append_nil]
                exact hquiet.attempts
              · intro last hlast
                cases hlast
          | true =>
              obtain ⟨as, last, hattempts, hcredits⟩ := credits_routeFrom env prompt onToken r₀
              have hroute : r.route env prompt onToken = r₀.routeFrom env prompt onToken := by
                rw [route, hempty, if_pos rfl, hselect]
              rw [← hroute] at hattempts hcredits
              rw [hquiet.attempts] at hattempts
              exact attributed_of_last hattempts hcredits

/-- In a run from any router, every result names the tier that has produced it exactly where the
hook refuses no move to a tier of another name. -/
theorem results_attributed_iff (env : RouterEnv) (r : Router) (actions : List RouterAction) :
    Machine.Guarded (step env)
        (fun r a => ∀ prompt onToken, a = .route prompt onToken → r.Attributed env prompt onToken)
        r actions ↔
      Machine.Guarded (step env) (fun r a => r.routeStands env a = true) r actions := by
  constructor
  · intro hall pre a hpre s hs
    cases a with
    | route prompt onToken =>
        exact (attributed_iff env prompt onToken s).mp (hall pre _ hpre s hs prompt onToken rfl)
    | _ => rfl
  · rintro hstands pre a hpre s hs prompt onToken rfl
    exact (attributed_iff env prompt onToken s).mpr (hstands pre _ hpre s hs)

/-- Ane faults, the hook refuses metal, and the result with ane's fault names metal. -/
theorem not_results_attributed :
    ¬ ∀ (env : RouterEnv) (r : Router) (actions : List RouterAction),
      Machine.Guarded (step env)
        (fun r a => ∀ prompt onToken, a = .route prompt onToken → r.Attributed env prompt onToken)
        r actions := by
  intro hall
  have hrun : ∃ s, Machine.exec (step (hookRefuses ["metal"]))
      (.ofOrder ["ane", "metal", "cpu"] 60000 0) (threeRequests.take 5) = some s ∧
      s.routeStands (hookRefuses ["metal"]) (.route "first" false) = false :=
    ⟨_, rfl, by decide⟩
  obtain ⟨s, hexec, hrefused⟩ := hrun
  have hfirst := hall (hookRefuses ["metal"]) (.ofOrder ["ane", "metal", "cpu"] 60000 0)
    threeRequests (threeRequests.take 5) (.route "first" false) ⟨threeRequests.drop 6, rfl⟩ s hexec
    "first" false rfl
  rw [attributed_iff, hrefused] at hfirst
  cases hfirst

end Router

end ServeInfer.Device
