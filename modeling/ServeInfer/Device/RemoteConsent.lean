import ServeInfer.Device.Adapters
import ServeInfer.Device.RouterRuns

/-!
# Consent and the last resort

The remote tier reads its policy again at each call, so no prompt leaves without
the opt-in. How the ladder came to rest on remote is another matter: `select` and
`reportFault` turn every tier above away first, while a recovery passes over the
tiers that have never faulted.
-/

namespace ServeInfer.Device

/-- A prompt reaches the transport only under the opt-in. -/
theorem allowed_of_remoteRequest {transport : Option RemoteTransport} {environ : Environ}
    {prompt : String} {request : RemoteRequest}
    (h : remoteRequest transport environ prompt = some request) :
    environ "EDGE_REMOTE_FALLBACK_ALLOWED" = some "1" := by
  obtain ⟨⟨hprobe, -⟩, -⟩ := Option.ite_none_right_eq_some.mp h
  unfold probeRemote at hprobe
  split at hprobe
  · cases hprobe
  · split at hprobe
    · assumption
    · cases hprobe

/-- The transport is called with the request, and only then. -/
theorem remoteExecute_of_request {send : RemoteTransport} {environ : Environ} {prompt : String}
    {request : RemoteRequest} (h : remoteRequest (some send) environ prompt = some request)
    (onToken : Bool) :
    remoteExecute (some send) environ prompt onToken =
      match send request with
      | .error what =>
          ([], { fault := .runtimeError, detail := "remote transport threw: " ++ what })
      | .ok response => remoteAnswer response onToken := by
  obtain ⟨⟨hprobe, -⟩, hrequest⟩ := Option.ite_none_right_eq_some.mp h
  obtain rfl := Option.some.inj hrequest
  cases hsend : send ⟨(environ "EDGE_REMOTE_ENDPOINT").getD "", prompt⟩ with
  | error what => simp only [remoteExecute, hprobe, hsend]
  | ok response => simp only [remoteExecute, hprobe, hsend]

/-- A router whose remote adapter is a `RemoteInferenceBackend`, with the environment and the
transport at each call. -/
def RouterEnv.withRemote (env : RouterEnv) (environ : ℕ → Environ)
    (transport : Option (ℕ → RemoteTransport)) : RouterEnv :=
  { env with
    executable := fun n tier => if tier = "remote" then transport.isSome else env.executable n tier
    execute := fun n tier prompt onToken =>
      if tier = "remote" then remoteExecute (transport.map (· n)) (environ n) prompt onToken
      else env.execute n tier prompt onToken }

/-- The last move to a tier of the name: the ladder before and after it, and whether it was a
recovery. -/
def lastMoveTo (tier : String) : List RouterEvent → Option (Ladder × Ladder × Bool) :=
  List.foldl (fun last e =>
    match e with
    | .moved before after recovered =>
        if after.active = tier then some (before, after, recovered) else last
    | _ => last) none

/-- Every tier above the one the ladder moved to was turned away in the move, or excused. -/
def TurnedAway (env : Env) (excused : Bool → DeviceTier → Prop) (before after : Ladder)
    (recovered : Bool) : Prop :=
  ∀ (k : ℕ) (tier : DeviceTier), k < after.activeIndex → after.tiers[k]? = some tier →
    Ladder.Refused env before.reads after.reads before.probeInterval tier ∨ excused recovered tier

/-- Where a turn of the walk hands the prompt to the transport, the opt-in was set at that call and
the ladder's last move to remote had turned away every tier above it that is not excused. -/
def LastResort (env : Env) (environ : ℕ → Environ) (transport : Option (ℕ → RemoteTransport))
    (excused : Bool → DeviceTier → Prop) (log : List RouterEvent) : Prop :=
  ∀ (pre : List RouterEvent) (a : Attempt) (post : List RouterEvent) (n : ℕ) (prompt : String)
    (request : RemoteRequest), log = pre ++ .tried a :: post → a.tier = "remote" →
    a.call = some n → remoteRequest (transport.map (· n)) (environ n) prompt = some request →
      environ n "EDGE_REMOTE_FALLBACK_ALLOWED" = some "1" ∧
        ∃ before after recovered, lastMoveTo "remote" pre = some (before, after, recovered) ∧
          TurnedAway env excused before after recovered

/-- A recovery passes over the tiers that have never faulted. -/
def passedOver (recovered : Bool) (tier : DeviceTier) : Prop :=
  recovered = true ∧ tier.consecutiveFaults = 0

namespace Ladder

variable {env : Env} {l l' s : Ladder} {asked : List String} {a : LadderAction} {j n : ℕ}
  {next : DeviceTier}

/-- What a scan has turned away. -/
theorem Scan.turnedAway {skip : DeviceTier → Bool}
    (hscan : Scan env skip l 0 n asked (some (j, next)) s) (hsame : SameTiers s l')
    (hindex : l'.activeIndex = j) {recovered : Bool}
    (hskip : ∀ tier, skip tier = true → recovered = true ∧ tier.consecutiveFaults = 0) :
    TurnedAway env passedOver l l' recovered := by
  intro k tier hk hget
  rw [hindex] at hk
  rw [hsame.tiers] at hget
  rcases hscan.refused k tier (Nat.zero_le k) hk hget with ⟨old, hold, hskipped⟩ | hrefused
  · obtain ⟨hrecovered, hnever⟩ := hskip old hskipped
    obtain ⟨tier', hget', heq⟩ := hscan.looks.get hold
    rw [hget, Option.some.injEq] at hget'
    subst hget'
    exact .inr ⟨hrecovered, (congrArg DeviceTier.consecutiveFaults heq).trans hnever⟩
  · rw [hsame.reads]
    exact .inl hrefused

/-- A call that makes another tier active has turned away the tiers above it. -/
theorem Turn.turnedAway (hturn : Turn env l a asked l') (hactive : l'.active.isEmpty = false)
    (hmoved : ¬ (l'.active = l.active ∧ l'.activeIndex = l.activeIndex)) {recovered : Bool}
    (hrecovered : a = .recoverEligibleTier → recovered = true) :
    TurnedAway env passedOver l l' recovered := by
  cases hturn with
  | looked _ hlooks =>
      refine absurd ?_ hmoved
      rw [hlooks.rest]
      exact ⟨rfl, rfl⟩
  | invalidated _ => exact absurd ⟨rfl, rfl⟩ hmoved
  | session => exact absurd ⟨rfl, rfl⟩ hmoved
  | lost => cases hactive
  | moved hby hscan hsame hindex _ =>
      refine hscan.turnedAway hsame hindex ?_
      intro tier hskip
      rcases hby with ⟨-, rfl⟩ | ⟨ha, rfl, -⟩
      · cases hskip
      · exact ⟨hrecovered ha, of_decide_eq_true hskip⟩
  | fell _ _ hscan _ hsame hindex _ =>
      intro k tier hk hget
      have haway : TurnedAway env passedOver (l.marked env _ _) l' recovered :=
        hscan.turnedAway hsame hindex fun _ hskip => by cases hskip
      rcases haway k tier hk hget with hrefused | hover
      · exact .inl (hrefused.mono (Nat.le_succ _) le_rfl)
      · exact .inr hover
  | kept _ _ _ _ hindex hact => exact absurd ⟨hact, hindex⟩ hmoved

end Ladder

namespace Router

variable {env : RouterEnv} {r r' : Router} {l : Ladder} {log : List RouterEvent} {e : RouterEvent}
  {prompt previous next tier : String} {onToken recovered : Bool} {n : ℕ}

theorem lastMoveTo_concat (tier : String) (log : List RouterEvent) (e : RouterEvent) :
    lastMoveTo tier (log ++ [e]) =
      match e with
      | .moved before after recovered =>
          if after.active = tier then some (before, after, recovered) else lastMoveTo tier log
      | _ => lastMoveTo tier log := by
  rw [lastMoveTo, List.foldl_append]
  rfl

/-- The active tier is where the ladder last moved to, and that move turned away what it should. -/
def Rested (env : Env) (r : Router) : Prop :=
  r.ladder.active.isEmpty = false → ∃ before after recovered,
    lastMoveTo r.ladder.active r.log = some (before, after, recovered) ∧
      after.activeIndex = r.ladder.activeIndex ∧ TurnedAway env passedOver before after recovered

theorem Rested.of_eq (h : Rested env.toEnv r) (hactive : r'.ladder.active = r.ladder.active)
    (hindex : r'.ladder.activeIndex = r.ladder.activeIndex)
    (hlog : ∀ tier, lastMoveTo tier r'.log = lastMoveTo tier r.log) : Rested env.toEnv r' := by
  intro hon
  rw [hactive] at hon
  rw [hactive, hindex, hlog]
  exact h hon

/-- A call on the ladder, its move logged. -/
theorem Rested.settle (h : Rested env.toEnv r)
    (haway : l.active.isEmpty = false →
      ¬ (l.active = r.ladder.active ∧ l.activeIndex = r.ladder.activeIndex) →
        TurnedAway env.toEnv passedOver r.ladder l recovered) :
    Rested env.toEnv (r.settle l recovered) := by
  intro hon
  have hon' : l.active.isEmpty = false := hon
  by_cases hstay : l.active = r.ladder.active ∧ l.activeIndex = r.ladder.activeIndex
  · have hlog : (r.settle l recovered).log = r.log := by
      simp [Router.settle, hstay.1, hstay.2]
    rw [hlog]
    change ∃ before after recovered', lastMoveTo l.active r.log = some (before, after, recovered') ∧
      after.activeIndex = l.activeIndex ∧ TurnedAway env.toEnv passedOver before after recovered'
    rw [hstay.1, hstay.2]
    rw [hstay.1] at hon'
    exact h hon'
  · have hlog : (r.settle l recovered).log = r.log ++ [.moved r.ladder l recovered] := by
      simp only [Router.settle, hon', Bool.false_or, Bool.and_eq_true, decide_eq_true_eq, hstay,
        if_false]
    rw [hlog]
    refine ⟨r.ladder, l, recovered, ?_, rfl, haway hon' hstay⟩
    rw [lastMoveTo_concat]
    exact if_pos rfl

theorem lastResort_nil (environ : ℕ → Environ) (transport : Option (ℕ → RemoteTransport))
    (excused : Bool → DeviceTier → Prop) : LastResort env.toEnv environ transport excused [] := by
  intro pre a post n prompt request h
  exact absurd h.symm (List.append_ne_nil_of_right_ne_nil pre (List.cons_ne_nil _ _))

/-- Another event leaves the log in order, where a turn on remote does so. -/
theorem lastResort_concat {environ : ℕ → Environ} {transport : Option (ℕ → RemoteTransport)}
    {excused : Bool → DeviceTier → Prop} (h : LastResort env.toEnv environ transport excused log)
    (he : ∀ a, e = .tried a → a.tier = "remote" → ∃ before after recovered,
      lastMoveTo "remote" log = some (before, after, recovered) ∧
        TurnedAway env.toEnv excused before after recovered) :
    LastResort env.toEnv environ transport excused (log ++ [e]) := by
  intro pre a post n prompt request heq htier hcall hrequest
  rcases List.eq_nil_or_concat post with rfl | ⟨post', last, rfl⟩
  · obtain ⟨rfl, hlast⟩ := List.append_inj' heq rfl
    rw [List.cons.injEq] at hlast
    exact ⟨allowed_of_remoteRequest hrequest, he a hlast.1 htier⟩
  · rw [List.concat_eq_append, ← List.cons_append, ← List.append_assoc] at heq
    exact h pre a post' n prompt request (List.append_inj' heq rfl).1 htier hcall hrequest

variable {environ : ℕ → Environ} {transport : Option (ℕ → RemoteTransport)}

/-- The router rests where its ladder last moved, and its log is in order. -/
structure Consented (env : RouterEnv) (environ : ℕ → Environ)
    (transport : Option (ℕ → RemoteTransport)) (r : Router) : Prop where
  rested : Rested env.toEnv r
  resort : LastResort env.toEnv environ transport passedOver r.log

theorem consented_kept (env : RouterEnv) (environ : ℕ → Environ)
    (transport : Option (ℕ → RemoteTransport)) : Kept env (Consented env environ transport) where
  settle := by
    intro r a asked l h hturn
    constructor
    · refine h.rested.settle fun hon hmoved => ?_
      exact hturn.turnedAway hon hmoved fun ha => decide_eq_true ha
    · unfold Router.settle
      dsimp only
      split
      · exact h.resort
      · refine lastResort_concat h.resort ?_
        intro a ha
        cases ha
  looked := by
    intro r asked l h hlooks
    refine ⟨h.rested.of_eq ?_ ?_ fun _ => rfl, h.resort⟩
    · rw [hlooks.rest]
    · rw [hlooks.rest]
  hooked := by
    intro r previous next answer h _
    constructor
    · refine h.rested.of_eq rfl rfl fun tier => ?_
      exact lastMoveTo_concat tier r.log (.hooked previous next answer)
    · refine lastResort_concat h.resort ?_
      intro a ha
      cases ha

/-- A turn on remote is a turn where the ladder last moved. -/
theorem Consented.tried (h : Consented env environ transport r) (prompt : String) (onToken : Bool) :
    Consented env environ transport (r.tried (r.attempt env prompt onToken)) := by
  constructor
  · refine h.rested.of_eq rfl rfl fun tier => ?_
    exact lastMoveTo_concat tier r.log (.tried _)
  · refine lastResort_concat h.resort ?_
    intro a ha htier
    cases ha
    rw [attempt_tier] at htier
    have hon : r.ladder.active.isEmpty = false := by
      rw [htier]
      rfl
    obtain ⟨before, after, recovered, hlast, -, haway⟩ := h.rested hon
    rw [htier] at hlast
    exact ⟨before, after, recovered, hlast, haway⟩

theorem Consented.routeFrom (h : Consented env environ transport r) :
    Consented env environ transport (r.routeFrom env prompt onToken).2 :=
  (consented_kept env environ transport).walk (H := fun _ => True)
    (fun _ h _ => h.tried prompt onToken) (fun _ _ _ _ _ _ _ => trivial)
    ((consented_kept env environ transport).attemptRecovery h) trivial

theorem Consented.step {action : RouterAction} (h : Consented env environ transport r)
    (hstep : r.step env action = some r') : Consented env environ transport r' := by
  cases action with
  | registerBackend name =>
      obtain rfl := Option.some.inj hstep
      exact ⟨h.rested.of_eq rfl rfl fun _ => rfl, h.resort⟩
  | setFallbackHook isSet =>
      obtain rfl := Option.some.inj hstep
      exact ⟨h.rested.of_eq rfl rfl fun _ => rfl, h.resort⟩
  | select =>
      obtain rfl := Option.some.inj hstep
      exact (consented_kept env environ transport).select h
  | beginSession =>
      obtain rfl := Option.some.inj hstep
      exact ⟨h.rested.of_eq rfl rfl fun _ => rfl, h.resort⟩
  | attemptRecovery =>
      obtain rfl := Option.some.inj hstep
      exact (consented_kept env environ transport).attemptRecovery h
  | route prompt onToken =>
      obtain rfl := Option.some.inj hstep
      unfold Router.route
      split
      · have hselect := (consented_kept env environ transport).select h
        split
        · rename_i r₀ heq
          rw [heq] at hselect
          exact hselect
        · rename_i r₀ heq
          rw [heq] at hselect
          exact hselect.routeFrom
      · exact h.routeFrom
  | ladder a =>
      obtain ⟨l, hl, rfl⟩ := Option.map_eq_some_iff.mp hstep
      exact (consented_kept env environ transport).settle h (Ladder.turn_of_step hl)

theorem consented_ofOrder (order : List String) (quarantineMs probeIntervalMs : ℤ) :
    Consented env environ transport (.ofOrder order quarantineMs probeIntervalMs) := by
  refine ⟨?_, lastResort_nil environ transport passedOver⟩
  intro hon
  cases hon

/-- In every run over any order of tiers, a prompt is handed to the transport only under the opt-in,
and when the ladder last moved to remote every tier above was turned away, or, by a recovery, passed
over as one that had never faulted. -/
theorem remote_last_resort (env : RouterEnv) (environ : ℕ → Environ)
    (transport : Option (ℕ → RemoteTransport)) (order : List String)
    (quarantineMs probeIntervalMs : ℤ) (actions : List RouterAction) (r : Router)
    (hexec : Machine.exec (Router.step (env.withRemote environ transport))
      (.ofOrder order quarantineMs probeIntervalMs) actions = some r) :
    LastResort env.toEnv environ transport passedOver r.log := by
  have hconsented : Consented (env.withRemote environ transport) environ transport r :=
    Machine.exec_invariant (consented_ofOrder order quarantineMs probeIntervalMs)
      (fun _ _ _ h hstep => h.step hstep) hexec
  exact hconsented.resort

/-- A cuda device that appears after the first probe, over a cpu tier that serves. -/
def lateCuda : RouterEnv where
  clock n := n * (1000 * ticksPerMs)
  probe n name := if name = "cuda" && n < 4 then .deviceMissing else .available
  executable _ _ := true
  execute _ _ _ _ := (["local answer"], { text := "local answer" })
  onFallback _ _ _ := true
  hookReads _ := []

/-- The operator has opted in. -/
def optedIn (_ : ℕ) : Environ
  | "EDGE_REMOTE_FALLBACK_ALLOWED" => some "1"
  | "EDGE_SARVAM_API_KEY" => some "key"
  | _ => none

/-- The vendor's first answer is a 503. -/
def busyOnce (n : ℕ) : RemoteTransport := fun _ =>
  if n = 0 then .ok { status := 503 } else .ok { status := 200, text := "cloud answer" }

/-- Remote stands above cpu; two requests. -/
def twoRequests : List RouterAction :=
  [.registerBackend "remote", .registerBackend "cpu", .select, .route "first" false,
    .route "second" false]

theorem remote_last_resort_lateCuda :
    ∃ r, Machine.exec (Router.step (lateCuda.withRemote optedIn (some busyOnce)))
        (.ofOrder ["cuda", "remote", "cpu"] 4500 0) twoRequests = some r ∧
      LastResort lateCuda.toEnv optedIn (some busyOnce) passedOver r.log :=
  ⟨_, rfl, remote_last_resort lateCuda optedIn (some busyOnce) ["cuda", "remote", "cpu"] 4500 0
    twoRequests _ rfl⟩

/-- The second request's recovery restores remote and hands over the prompt, though cuda, which has
never faulted, has become available. -/
theorem remote_restored_past_cuda :
    ¬ ∀ (env : RouterEnv) (environ : ℕ → Environ) (transport : Option (ℕ → RemoteTransport))
      (order : List String) (quarantineMs probeIntervalMs : ℤ) (actions : List RouterAction)
      (r : Router), Machine.exec (Router.step (env.withRemote environ transport))
        (.ofOrder order quarantineMs probeIntervalMs) actions = some r →
      LastResort env.toEnv environ transport (fun _ _ => False) r.log := by
  intro hall
  have hrun : ∃ r, Machine.exec (Router.step (lateCuda.withRemote optedIn (some busyOnce)))
      (.ofOrder ["cuda", "remote", "cpu"] 4500 0) twoRequests = some r ∧
      ∃ a, r.log = r.log.take 5 ++ .tried a :: r.log.drop 6 ∧ a.tier = "remote" ∧
        a.call = some 2 ∧ ∃ before after, lastMoveTo "remote" (r.log.take 5) =
          some (before, after, true) ∧ before.reads = 14 ∧ after.reads = 16 ∧
          before.probeInterval = 0 ∧ 0 < after.activeIndex ∧ after.tiers[0]? = some
            { name := "cuda", probeCachedAt := 8000 * ticksPerMs, probeCacheValid := true,
              cachedProbe := .deviceMissing } :=
    ⟨_, rfl, _, rfl, rfl, rfl, _, _, rfl, rfl, rfl, rfl, by decide, rfl⟩
  obtain ⟨r, hexec, a, hlog, htier, hcall, before, after, hlast, hbefore, hafter, hinterval, hbelow,
    hcuda⟩ := hrun
  have hresort := hall lateCuda optedIn (some busyOnce) ["cuda", "remote", "cpu"] 4500 0 twoRequests
    r hexec (r.log.take 5) a (r.log.drop 6) 2 "second" ⟨"", "second"⟩ hlog htier hcall
    (by decide)
  obtain ⟨-, before', after', recovered, hlast', haway⟩ := hresort
  rw [hlast, Option.some.injEq, Prod.mk.injEq] at hlast'
  obtain ⟨rfl, hlast'⟩ := hlast'
  obtain ⟨rfl, -⟩ := Prod.mk.inj hlast'
  rcases haway 0 _ hbelow hcuda with hrefused | hfalse
  · rcases hrefused with hfatal | ⟨k, hk, -, hclock⟩ | ⟨-, -, k, hk, -, hclock⟩
    · cases hfatal
    · have hticks : (0 : ℤ) ≤ k * (1000 * ticksPerMs) := by
        rw [ticksPerMs]
        omega
      exact absurd hclock (Int.not_lt.mpr hticks)
    · rw [hbefore] at hk
      have hclock' : 8000 * ticksPerMs = k * (1000 * ticksPerMs) ∨
          k * (1000 * ticksPerMs) - 8000 * ticksPerMs < before.probeInterval := hclock
      rw [hinterval, ticksPerMs] at hclock'
      omega
  · exact hfalse

end Router

end ServeInfer.Device
