import ServeInfer.Device.Ladder

/-!
# Looking at the tiers

Every method of the ladder asks the clock and the probes through a few looks at
single tiers. What a look may change, whom it probes, and what it says about the
tier when it lets the tier pass or turns it away.
-/

namespace ServeInfer.Device

/-- The tier without its probe cache. -/
def DeviceTier.uncached (tier : DeviceTier) : DeviceTier :=
  { tier with probeCachedAt := 0, probeCacheValid := false, cachedProbe := .available }

/-- The tier after a probe of it. -/
def DeviceTier.cached (tier : DeviceTier) (result : ProbeResult) (now : ℤ) : DeviceTier :=
  { tier with cachedProbe := result, probeCachedAt := now, probeCacheValid := true }

@[simp] theorem DeviceTier.uncached_cached (tier : DeviceTier) (result : ProbeResult) (now : ℤ) :
    (tier.cached result now).uncached = tier.uncached := rfl

namespace Ladder

variable (env : Env)

/-- The names `probeTierCached` hands to the probe. -/
def probeAsked (l : Ladder) (tier : DeviceTier) : List String :=
  if l.probeInterval > 0 ∧ tier.probeCacheValid = true ∧
      env.clock l.reads - tier.probeCachedAt < l.probeInterval then []
  else [tier.name]

/-- The names one turn of `select`'s loop hands to the probe. -/
def eligibleAsked (l : Ladder) (tier : DeviceTier) : List String :=
  if (l.usable env tier).1 then (l.usable env tier).2.probeAsked env tier else []

/-- The loop `select` and `recoverEligibleTier` share: the first tier, from an index on, that is
not skipped and passes a look at it. -/
def firstEligible (skip : DeviceTier → Bool) (i : ℕ) :
    List DeviceTier → Ladder → Option (ℕ × DeviceTier) × Ladder
  | [], l => (none, l)
  | tier :: rest, l =>
      if skip tier then firstEligible skip (i + 1) rest l
      else if (l.eligible env i tier).1 then (some (i, tier), (l.eligible env i tier).2)
      else firstEligible skip (i + 1) rest (l.eligible env i tier).2

/-- The names the loop hands to the probe. -/
def firstAsked (skip : DeviceTier → Bool) (i : ℕ) : List DeviceTier → Ladder → List String
  | [], _ => []
  | tier :: rest, l =>
      if skip tier then firstAsked skip (i + 1) rest l
      else if (l.eligible env i tier).1 then l.eligibleAsked env tier
      else l.eligibleAsked env tier ++ firstAsked skip (i + 1) rest (l.eligible env i tier).2

/-- `select` skips no tier. -/
def skipNone (_ : DeviceTier) : Bool := false

/-- `recoverEligibleTier` skips the tiers that have never faulted. -/
def skipNeverFaulted (tier : DeviceTier) : Bool := tier.consecutiveFaults = 0

/-- `healthCheck`: a probe past the cache. -/
def healthCheck (l : Ladder) (name : String) : Bool × Ladder :=
  (env.probe l.probes name = .available, { l with probes := l.probes + 1 })

/-- The ladder after `tierState`, whose answer is a text for the logs and `/health`. -/
def tierState (l : Ladder) (i : ℕ) : Ladder :=
  match l.tiers[i]? with
  | none => l
  | some tier => (l.tick.probeTierCached env i tier).2

/-- The names `tierState` hands to the probe. -/
def tierStateAsked (l : Ladder) (i : ℕ) : List String :=
  match l.tiers[i]? with
  | none => []
  | some tier => l.tick.probeAsked env tier

/-- `probeTierCached` of the tier at an index. -/
def probeAt (l : Ladder) (i : ℕ) : Ladder :=
  match l.tiers[i]? with
  | none => l
  | some tier => (l.probeTierCached env i tier).2

/-- The names `probeTierCached` of the tier at an index hands to the probe. -/
def probeAtAsked (l : Ladder) (i : ℕ) : List String :=
  match l.tiers[i]? with
  | none => []
  | some tier => l.probeAsked env tier

/-- The ladder after `toJson` has come to an index: each tier is probed, then its state read. -/
def toJsonFrom (i : ℕ) : ℕ → Ladder → Ladder
  | 0, l => l
  | n + 1, l => toJsonFrom (i + 1) n ((l.probeAt env i).tierState env i)

/-- The names `toJson` hands to the probe, from an index on. -/
def toJsonAsked (i : ℕ) : ℕ → Ladder → List String
  | 0, _ => []
  | n + 1, l =>
      l.probeAtAsked env i ++ (l.probeAt env i).tierStateAsked env i ++
        toJsonAsked (i + 1) n ((l.probeAt env i).tierState env i)

/-- The ladder after `toJson`. -/
def toJson (l : Ladder) : Ladder := toJsonFrom env 0 l.tiers.length l.tick

/-- One look at a tier, by what `usable` and `probeTierCached` find: the answer, the names probed
and the ladder afterwards. -/
inductive Look (l : Ladder) (i : ℕ) (tier : DeviceTier) : Bool → List String → Ladder → Prop
  | fatal (h : tier.sessionFatal = true) : Look l i tier false [] l
  | benched (h : tier.sessionFatal = false)
      (hclock : env.clock l.reads < tier.quarantinedUntil) : Look l i tier false [] l.tick
  | cached (h : tier.sessionFatal = false) (hclock : tier.quarantinedUntil ≤ env.clock l.reads)
      (hfresh : l.probeInterval > 0 ∧ tier.probeCacheValid = true ∧
        env.clock (l.reads + 1) - tier.probeCachedAt < l.probeInterval) :
      Look l i tier (tier.cachedProbe = .available) [] l.tick.tick
  | probed (h : tier.sessionFatal = false) (hclock : tier.quarantinedUntil ≤ env.clock l.reads)
      (hstale : ¬ (l.probeInterval > 0 ∧ tier.probeCacheValid = true ∧
        env.clock (l.reads + 1) - tier.probeCachedAt < l.probeInterval)) :
      Look l i tier (env.probe l.probes tier.name = .available) [tier.name]
        { l.tick.tick.setTier i
            (·.cached (env.probe l.probes tier.name) (env.clock (l.reads + 1))) with
          probes := l.probes + 1 }

variable {env} {l l' l'' : Ladder} {i j k : ℕ} {tier tier' : DeviceTier} {asked asked' : List String}

theorem look_eligible (env : Env) (l : Ladder) (i : ℕ) (tier : DeviceTier) :
    Look env l i tier (l.eligible env i tier).1 (l.eligibleAsked env tier)
      (l.eligible env i tier).2 := by
  cases hfatal : tier.sessionFatal with
  | true =>
      have h : Look env l i tier false [] l := .fatal hfatal
      simpa [eligible, eligibleAsked, usable, hfatal] using h
  | false =>
      by_cases hclock : env.clock l.reads < tier.quarantinedUntil
      · have h : Look env l i tier false [] l.tick := .benched hfatal hclock
        simpa [eligible, eligibleAsked, usable, hfatal, hclock] using h
      · have hserved : tier.quarantinedUntil ≤ env.clock l.reads := Int.not_lt.mp hclock
        have husable : l.usable env tier = (true, l.tick) := by simp [usable, hfatal, hclock]
        by_cases hcache : l.tick.probeInterval > 0 ∧ tier.probeCacheValid = true ∧
            env.clock l.tick.reads - tier.probeCachedAt < l.tick.probeInterval
        · have hprobe : l.tick.probeTierCached env i tier = (tier.cachedProbe, l.tick.tick) := by
            rw [probeTierCached]
            exact if_pos hcache
          have hasked : l.eligibleAsked env tier = [] := by
            rw [eligibleAsked, husable]
            exact if_pos hcache
          have h : Look env l i tier (tier.cachedProbe = .available) [] l.tick.tick :=
            .cached hfatal hserved hcache
          rw [hasked, eligible, husable]
          dsimp only
          rw [hprobe]
          cases hres : tier.cachedProbe <;> simpa [hres] using h
        · have hprobe : l.tick.probeTierCached env i tier =
              (env.probe l.probes tier.name, { l.tick.tick.setTier i
                (·.cached (env.probe l.probes tier.name) (env.clock (l.reads + 1))) with
                  probes := l.probes + 1 }) := by
            rw [probeTierCached]
            exact if_neg hcache
          have hasked : l.eligibleAsked env tier = [tier.name] := by
            rw [eligibleAsked, husable]
            exact if_neg hcache
          have h : Look env l i tier (env.probe l.probes tier.name = .available) [tier.name]
              { l.tick.tick.setTier i
                (·.cached (env.probe l.probes tier.name) (env.clock (l.reads + 1))) with
                  probes := l.probes + 1 } := .probed hfatal hserved hcache
          rw [hasked, eligible, husable]
          dsimp only
          rw [hprobe]
          cases hres : env.probe l.probes tier.name <;> simpa [hres] using h

/-- What looks do to a ladder: the counts of readings go on, the names asked are those probed, and
no tier changes but in its probe cache, which holds an answer of one of these probes or is as
it was. -/
structure Looks (env : Env) (l : Ladder) (asked : List String) (l' : Ladder) : Prop where
  rest : l' = { l with tiers := l'.tiers, reads := l'.reads, probes := l'.probes }
  gates : l'.tiers.map DeviceTier.uncached = l.tiers.map DeviceTier.uncached
  reads : l.reads ≤ l'.reads
  probes : l'.probes = l.probes + asked.length
  caches : ∀ (k : ℕ) (tier : DeviceTier), l'.tiers[k]? = some tier → l.tiers[k]? = some tier ∨
    ∃ n : ℕ, asked[n]? = some tier.name ∧ tier.cachedProbe = env.probe (l.probes + n) tier.name

theorem Looks.refl (l : Ladder) : Looks env l [] l :=
  ⟨rfl, rfl, le_rfl, rfl, fun _ _ h => .inl h⟩

theorem Looks.tick (l : Ladder) : Looks env l [] l.tick :=
  ⟨rfl, rfl, Nat.le_succ _, rfl, fun _ _ h => .inl h⟩

theorem Looks.get (h : Looks env l asked l') (hget : l.tiers[k]? = some tier) :
    ∃ tier', l'.tiers[k]? = some tier' ∧ tier'.uncached = tier.uncached := by
  have hmap : (l'.tiers.map DeviceTier.uncached)[k]? = (l.tiers.map DeviceTier.uncached)[k]? := by
    rw [h.gates]
  rw [List.getElem?_map, List.getElem?_map, hget, Option.map_some] at hmap
  obtain ⟨tier', htier', heq⟩ := Option.map_eq_some_iff.mp hmap
  exact ⟨tier', htier', heq⟩

theorem Looks.names (h : Looks env l asked l') : l'.names = l.names := by
  have hnames := congrArg (List.map DeviceTier.name) h.gates
  rw [List.map_map, List.map_map] at hnames
  exact hnames

theorem Looks.trans (h : Looks env l asked l') (h' : Looks env l' asked' l'') :
    Looks env l (asked ++ asked') l'' where
  rest := by
    have hrest := h'.rest
    rw [h.rest] at hrest
    exact hrest
  gates := h'.gates.trans h.gates
  reads := h.reads.trans h'.reads
  probes := by
    rw [h'.probes, h.probes, List.length_append, Nat.add_assoc]
  caches := by
    intro k tier hget
    rcases h'.caches k tier hget with hkept | ⟨n, hn, hprobe⟩
    · rcases h.caches k tier hkept with hkept' | ⟨n, hn, hprobe⟩
      · exact .inl hkept'
      · refine .inr ⟨n, ?_, hprobe⟩
        rw [List.getElem?_append_left (List.getElem?_eq_some_iff.mp hn).1]
        exact hn
    · refine .inr ⟨asked.length + n, ?_, ?_⟩
      · rw [List.getElem?_append_right (Nat.le_add_right _ _), Nat.add_sub_cancel_left]
        exact hn
      · rw [hprobe, h.probes, Nat.add_assoc]

/-- A probe of a tier fills its cache and no other's. -/
theorem looks_setTier_cached (hget : l.tiers[i]? = some tier) (now : ℤ) {n : ℕ} (hn : l.reads ≤ n) :
    Looks env l [tier.name]
      { l.setTier i (·.cached (env.probe l.probes tier.name) now) with
        reads := n, probes := l.probes + 1 } where
  rest := rfl
  gates := by
    refine List.ext_getElem? fun k => ?_
    simp only [setTier, List.getElem?_map, List.getElem?_modify]
    cases l.tiers[k]? with
    | none => rfl
    | some tier => by_cases hk : i = k <;> simp [hk]
  reads := hn
  probes := rfl
  caches := by
    intro k tier' hget'
    dsimp only [setTier] at hget'
    rw [List.getElem?_modify] at hget'
    by_cases hk : i = k
    · subst hk
      rw [hget, Option.map_eq_map, Option.map_some, if_pos rfl, Option.some.injEq] at hget'
      subst hget'
      exact .inr ⟨0, rfl, rfl⟩
    · refine .inl ?_
      cases hold : l.tiers[k]? with
      | none => simp [hold] at hget'
      | some old => simpa [hold, hk] using hget'

theorem Look.looks {ok : Bool} (h : Look env l i tier ok asked l')
    (hget : l.tiers[i]? = some tier) : Looks env l asked l' := by
  cases h with
  | fatal => exact .refl l
  | benched => exact .tick l
  | cached => exact (Looks.tick l).trans (.tick l.tick)
  | probed =>
      have hn : l.reads ≤ l.tick.tick.reads := (Nat.le_succ _).trans (Nat.le_succ _)
      exact looks_setTier_cached hget _ hn

/-- A look at one tier leaves the others alone. -/
theorem Look.others {ok : Bool} (h : Look env l i tier ok asked l') (hk : k ≠ i) :
    l'.tiers[k]? = l.tiers[k]? := by
  cases h with
  | fatal => rfl
  | benched => rfl
  | cached => rfl
  | probed =>
      dsimp only [setTier, Ladder.tick]
      exact List.getElem?_modify_ne _ _ hk.symm

theorem looks_probeTierCached (hget : l.tiers[i]? = some tier) :
    Looks env l (l.probeAsked env tier) (l.probeTierCached env i tier).2 := by
  by_cases hcache : l.probeInterval > 0 ∧ tier.probeCacheValid = true ∧
      env.clock l.reads - tier.probeCachedAt < l.probeInterval
  · have hprobe : l.probeTierCached env i tier = (tier.cachedProbe, l.tick) := if_pos hcache
    have hasked : l.probeAsked env tier = [] := if_pos hcache
    rw [hprobe, hasked]
    exact .tick l
  · have hprobe : l.probeTierCached env i tier = (env.probe l.probes tier.name,
        { l.tick.setTier i (·.cached (env.probe l.probes tier.name) (env.clock l.reads)) with
          probes := l.probes + 1 }) := if_neg hcache
    have hasked : l.probeAsked env tier = [tier.name] := if_neg hcache
    rw [hprobe, hasked]
    exact looks_setTier_cached hget _ (Nat.le_succ _)

theorem looks_tierState (env : Env) (l : Ladder) (i : ℕ) :
    Looks env l (l.tierStateAsked env i) (l.tierState env i) := by
  cases hget : l.tiers[i]? with
  | none =>
      simp only [tierState, tierStateAsked, hget]
      exact .refl l
  | some tier =>
      have hprobe : Looks env l.tick _ (l.tick.probeTierCached env i tier).2 :=
        looks_probeTierCached hget
      simp only [tierState, tierStateAsked, hget]
      exact (Looks.tick l).trans hprobe

theorem looks_probeAt (l : Ladder) (i : ℕ) :
    Looks env l (l.probeAtAsked env i) (l.probeAt env i) := by
  cases hget : l.tiers[i]? with
  | none =>
      simp only [probeAt, probeAtAsked, hget]
      exact .refl l
  | some tier =>
      simp only [probeAt, probeAtAsked, hget]
      exact looks_probeTierCached hget

theorem looks_toJsonFrom (i n : ℕ) (l : Ladder) :
    Looks env l (toJsonAsked env i n l) (toJsonFrom env i n l) := by
  induction n generalizing i l with
  | zero => exact .refl l
  | succ n ih =>
      rw [toJsonAsked, toJsonFrom]
      exact ((looks_probeAt l i).trans (looks_tierState _ _ i)).trans (ih (i + 1) _)

theorem looks_toJson (l : Ladder) :
    Looks env l (toJsonAsked env 0 l.tiers.length l.tick) (l.toJson env) :=
  (Looks.tick l).trans (looks_toJsonFrom 0 _ l.tick)

theorem looks_healthCheck (l : Ladder) (name : String) :
    Looks env l [name] (l.healthCheck env name).2 :=
  ⟨rfl, rfl, le_rfl, rfl, fun _ _ h => .inl h⟩

/-- What a look knows of a tier it let pass, at a reading of the clock from one count of readings
to another. -/
structure Passed (env : Env) (m n : ℕ) (tier : DeviceTier) : Prop where
  session : tier.sessionFatal = false
  served : ∃ r, m ≤ r ∧ r < n ∧ tier.quarantinedUntil ≤ env.clock r
  valid : tier.probeCacheValid = true
  probe : tier.cachedProbe = .available

/-- What a look knows of a tier it turned away: it is session-fatal, in quarantine, or a probe of
it, of that moment or still within the interval, answered otherwise than available. -/
def Refused (env : Env) (m n : ℕ) (interval : ℤ) (tier : DeviceTier) : Prop :=
  tier.sessionFatal = true ∨
    (∃ r, m ≤ r ∧ r < n ∧ env.clock r < tier.quarantinedUntil) ∨
    tier.probeCacheValid = true ∧ tier.cachedProbe ≠ .available ∧ ∃ r, m ≤ r ∧ r < n ∧
      (tier.probeCachedAt = env.clock r ∨ env.clock r - tier.probeCachedAt < interval)

theorem Passed.mono {m n m' n' : ℕ} (h : Passed env m n tier) (hm : m' ≤ m) (hn : n ≤ n') :
    Passed env m' n' tier := by
  obtain ⟨r, hr, hr', hclock⟩ := h.served
  exact ⟨h.session, ⟨r, hm.trans hr, hr'.trans_le hn, hclock⟩, h.valid, h.probe⟩

theorem Refused.mono {m n m' n' : ℕ} {interval : ℤ} (h : Refused env m n interval tier)
    (hm : m' ≤ m) (hn : n ≤ n') : Refused env m' n' interval tier := by
  rcases h with h | ⟨r, hr, hr', hclock⟩ | ⟨hvalid, hprobe, r, hr, hr', hclock⟩
  · exact .inl h
  · exact .inr (.inl ⟨r, hm.trans hr, hr'.trans_le hn, hclock⟩)
  · exact .inr (.inr ⟨hvalid, hprobe, r, hm.trans hr, hr'.trans_le hn, hclock⟩)

theorem Look.passed (h : Look env l i tier true asked l') (hget : l.tiers[i]? = some tier) :
    ∃ tier', l'.tiers[i]? = some tier' ∧ Passed env l.reads l'.reads tier' := by
  generalize hok : true = ok at h
  cases h with
  | fatal => cases hok
  | benched => cases hok
  | cached hsession hclock hfresh =>
      refine ⟨tier, hget, hsession, ⟨l.reads, le_rfl, ?_, hclock⟩, hfresh.2.1,
        of_decide_eq_true hok.symm⟩
      exact (Nat.lt_succ_self _).trans (Nat.lt_succ_self _)
  | probed hsession hclock _ =>
      refine ⟨tier.cached (env.probe l.probes tier.name) (env.clock (l.reads + 1)), ?_, hsession,
        ⟨l.reads, le_rfl, ?_, hclock⟩, rfl, of_decide_eq_true hok.symm⟩
      · dsimp only [setTier, Ladder.tick]
        rw [List.getElem?_modify_eq, hget]
        rfl
      · exact (Nat.lt_succ_self _).trans (Nat.lt_succ_self _)

theorem Look.refused (h : Look env l i tier false asked l') (hget : l.tiers[i]? = some tier) :
    ∃ tier', l'.tiers[i]? = some tier' ∧ Refused env l.reads l'.reads l.probeInterval tier' := by
  generalize hok : false = ok at h
  cases h with
  | fatal hfatal => exact ⟨tier, hget, .inl hfatal⟩
  | benched _ hclock =>
      exact ⟨tier, hget, .inr (.inl ⟨l.reads, le_rfl, Nat.lt_succ_self _, hclock⟩)⟩
  | cached _ _ hfresh =>
      refine ⟨tier, hget,
        .inr (.inr ⟨hfresh.2.1, of_decide_eq_false hok.symm, l.reads + 1, ?_, ?_, ?_⟩)⟩
      · exact Nat.le_succ _
      · exact Nat.lt_succ_self _
      · exact .inr hfresh.2.2
  | probed =>
      refine ⟨tier.cached (env.probe l.probes tier.name) (env.clock (l.reads + 1)), ?_,
        .inr (.inr ⟨rfl, of_decide_eq_false hok.symm, l.reads + 1, ?_, ?_, .inl rfl⟩)⟩
      · dsimp only [setTier, Ladder.tick]
        rw [List.getElem?_modify_eq, hget]
        rfl
      · exact Nat.le_succ _
      · exact Nat.lt_succ_self _

/-- All a scan of the tiers from one index up to another says: whom it found, and why none of the
tiers before that one. -/
structure Scan (env : Env) (skip : DeviceTier → Bool) (l : Ladder) (i n : ℕ) (asked : List String)
    (found : Option (ℕ × DeviceTier)) (s : Ladder) : Prop where
  looks : Looks env l asked s
  before : ∀ k, k < i → s.tiers[k]? = l.tiers[k]?
  passed : ∀ j tier, found = some (j, tier) → i ≤ j ∧ j < n ∧ l.tiers[j]? = some tier ∧
    skip tier = false ∧ ∃ tier', s.tiers[j]? = some tier' ∧ Passed env l.reads s.reads tier'
  refused : ∀ k tier', i ≤ k → k < found.elim n Prod.fst → s.tiers[k]? = some tier' →
    (∃ tier, l.tiers[k]? = some tier ∧ skip tier = true) ∨
      Refused env l.reads s.reads l.probeInterval tier'

variable {skip : DeviceTier → Bool} {n : ℕ} {found : Option (ℕ × DeviceTier)} {s : Ladder}

theorem Scan.nil (l : Ladder) (i : ℕ) : Scan env skip l i i [] none l := by
  refine ⟨.refl l, fun _ _ => rfl, ?_, ?_⟩
  · intro j tier hfound
    cases hfound
  · intro k tier' hik hkn
    exact absurd hik (Nat.not_le.mpr hkn)

/-- A tier that is skipped, then the rest of the scan. -/
theorem Scan.of_skip (hget : l.tiers[i]? = some tier) (hskip : skip tier = true)
    (hscan : Scan env skip l (i + 1) n asked found s) : Scan env skip l i n asked found s := by
  refine ⟨hscan.looks, fun k hk => hscan.before k (hk.trans (Nat.lt_succ_self i)), ?_, ?_⟩
  · intro j t hfound
    obtain ⟨hij, hrem⟩ := hscan.passed j t hfound
    exact ⟨(Nat.le_succ i).trans hij, hrem⟩
  · intro k t' hik hkn ht'
    rcases Nat.eq_or_lt_of_le hik with rfl | hlt
    · exact .inl ⟨tier, hget, hskip⟩
    · exact hscan.refused k t' hlt hkn ht'

/-- A tier that passes ends the scan. -/
theorem Scan.of_passed (hget : l.tiers[i]? = some tier) (hskip : skip tier = false)
    (hlook : Look env l i tier true asked s) (hin : i < n) :
    Scan env skip l i n asked (some (i, tier)) s := by
  obtain ⟨tier', htier', hpass⟩ := hlook.passed hget
  refine ⟨hlook.looks hget, fun k hk => hlook.others (Nat.ne_of_lt hk), ?_, ?_⟩
  · intro j t hfound
    cases hfound
    exact ⟨le_rfl, hin, hget, hskip, tier', htier', hpass⟩
  · intro k t' hik hkn
    exact absurd hik (Nat.not_le.mpr hkn)

/-- A tier that is turned away, then the rest of the scan. -/
theorem Scan.of_refused (hget : l.tiers[i]? = some tier) (hlook : Look env l i tier false asked l')
    (hscan : Scan env skip l' (i + 1) n asked' found s) :
    Scan env skip l i n (asked ++ asked') found s := by
  have hlooks := hlook.looks hget
  obtain ⟨tier', htier', hrefused⟩ := hlook.refused hget
  have hothers : ∀ k, i < k → l'.tiers[k]? = l.tiers[k]? :=
    fun k hk => hlook.others (Nat.ne_of_gt hk)
  have hinterval : l'.probeInterval = l.probeInterval := by rw [hlooks.rest]
  refine ⟨hlooks.trans hscan.looks, ?_, ?_, ?_⟩
  · intro k hk
    rw [hscan.before k (hk.trans (Nat.lt_succ_self i)), hlook.others (Nat.ne_of_lt hk)]
  · intro j t hfound
    obtain ⟨hij, hjn, ht, hnoskip, t', ht', hpass⟩ := hscan.passed j t hfound
    rw [hothers j hij] at ht
    exact ⟨(Nat.le_succ i).trans hij, hjn, ht, hnoskip, t', ht', hpass.mono hlooks.reads le_rfl⟩
  · intro k t' hik hkn ht'
    rcases Nat.eq_or_lt_of_le hik with rfl | hlt
    · rw [hscan.before i (Nat.lt_succ_self i), htier', Option.some.injEq] at ht'
      subst ht'
      exact .inr (hrefused.mono le_rfl hscan.looks.reads)
    · rcases hscan.refused k t' hlt hkn ht' with ⟨t, ht, hskipped⟩ | href
      · rw [hothers k hlt] at ht
        exact .inl ⟨t, ht, hskipped⟩
      · rw [hinterval] at href
        exact .inr (href.mono hlooks.reads le_rfl)

theorem scan_firstEligible (env : Env) (skip : DeviceTier → Bool) (tiers : List DeviceTier)
    (l : Ladder) (i : ℕ)
    (hat : ∀ (k : ℕ) (tier : DeviceTier), tiers[k]? = some tier → l.tiers[i + k]? = some tier) :
    Scan env skip l i (i + tiers.length) (firstAsked env skip i tiers l)
      (firstEligible env skip i tiers l).1 (firstEligible env skip i tiers l).2 := by
  induction tiers generalizing l i with
  | nil => exact .nil l i
  | cons tier rest ih =>
      have hget : l.tiers[i]? = some tier := hat 0 tier rfl
      have hrest : ∀ (k : ℕ) (t : DeviceTier), rest[k]? = some t → l.tiers[i + 1 + k]? = some t := by
        intro k t ht
        rw [Nat.add_right_comm]
        exact hat (k + 1) t ht
      have hend : i + (tier :: rest).length = i + 1 + rest.length := by
        rw [List.length_cons, Nat.add_comm rest.length 1, Nat.add_assoc]
      have hlook := look_eligible env l i tier
      rw [hend]
      cases hskip : skip tier with
      | true =>
          simp only [firstAsked, firstEligible, hskip, if_true]
          exact (ih l (i + 1) hrest).of_skip hget hskip
      | false =>
          cases hok : (l.eligible env i tier).1 with
          | true =>
              rw [hok] at hlook
              simp only [firstAsked, firstEligible, hskip, hok, Bool.false_eq_true, if_false, if_true]
              exact .of_passed hget hskip hlook (by omega)
          | false =>
              rw [hok] at hlook
              simp only [firstAsked, firstEligible, hskip, hok, Bool.false_eq_true, if_false]
              refine .of_refused hget hlook (ih _ (i + 1) ?_)
              intro k t ht
              rw [hlook.others (by omega)]
              exact hrest k t ht

/-- `select` in terms of the shared loop. -/
theorem selectFrom_eq (env : Env) (i : ℕ) (tiers : List DeviceTier) (l : Ladder) :
    selectFrom env i tiers l =
      match firstEligible env skipNone i tiers l with
      | (some (j, tier), s) => (true, s.activate j tier)
      | (none, s) => (false, { s with active := "" }) := by
  induction tiers generalizing l i with
  | nil => rfl
  | cons tier rest ih =>
      rw [selectFrom, firstEligible, skipNone, if_neg Bool.false_ne_true]
      cases hlook : l.eligible env i tier with
      | mk ok s =>
          cases ok with
          | true => rfl
          | false =>
              rw [if_neg Bool.false_ne_true]
              exact ih (i + 1) s

/-- A higher tier becomes active again. -/
def restore (l : Ladder) (i : ℕ) (tier : DeviceTier) : Ladder :=
  let l := { l with activeIndex := i, active := tier.name }
  if l.activeIndex ≤ l.baselineIndex then { l with degradedReason := "" } else l

/-- `recoverEligibleTier` in terms of the shared loop. -/
theorem recoverFrom_eq (i : ℕ) (tiers : List DeviceTier) (l : Ladder) :
    recoverFrom env i tiers l =
      match firstEligible env skipNeverFaulted i tiers l with
      | (some (j, tier), s) => (true, s.restore j tier)
      | (none, s) => (false, s) := by
  induction tiers generalizing l i with
  | nil => rfl
  | cons tier rest ih =>
      rw [recoverFrom, firstEligible, skipNeverFaulted]
      by_cases hnever : tier.consecutiveFaults = 0
      · rw [if_pos hnever, if_pos (decide_eq_true hnever)]
        exact ih (i + 1) l
      · rw [if_neg hnever, if_neg (by simp [hnever])]
        cases hlook : l.eligible env i tier with
        | mk ok s =>
            cases ok with
            | true => rfl
            | false =>
                rw [if_neg Bool.false_ne_true]
                exact ih (i + 1) s

end Ladder

end ServeInfer.Device
