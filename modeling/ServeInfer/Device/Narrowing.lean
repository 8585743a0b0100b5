import ServeInfer.Device.Ladder

/-!
# Narrowing a configured ladder

`ladderFrom` drops tiers a worker must not use and makes sure of the cpu floor
by appending it. Where remote is configured without a cpu tier above it, the
floor is appended below remote.
-/

namespace ServeInfer.Device

/-- `isLocalAccelerator`. -/
def isLocalAccelerator (tier : String) : Bool :=
  tier ∈ ["cuda", "rocm", "vulkan", "metal", "npu", "ane", "directml", "gpu"]

/-- `ladderFrom`. -/
def ladderFrom (configured : List String) (noGpuSlot forceCpu : Bool) : List String :=
  if !noGpuSlot && !forceCpu then configured
  else
    let kept := configured.filter fun tier =>
      !(if forceCpu then isLocalAccelerator tier else tier = "cuda")
    if "cpu" ∈ kept then kept else kept ++ ["cpu"]

namespace Ladder

variable {env : Env}

/-- The tier is not session-fatal, its quarantine has ended, and a probe of it, from now on and
through the cache, answers available. -/
structure Standing (env : Env) (l : Ladder) (tier : DeviceTier) : Prop where
  session : tier.sessionFatal = false
  served : tier.quarantinedUntil ≤ env.clock l.reads
  cached : l.probeInterval > 0 → tier.probeCacheValid = true →
    env.clock l.reads - tier.probeCachedAt < l.probeInterval → tier.cachedProbe = .available
  probed : ∀ n, l.probes ≤ n → env.probe n tier.name = .available

/-- Looking at a tier moves the clock on and changes nothing but that tier's probe cache. -/
structure Looked (l l' : Ladder) : Prop where
  reads : l.reads ≤ l'.reads
  probes : l.probes ≤ l'.probes
  interval : l'.probeInterval = l.probeInterval
  names : l'.names = l.names

theorem Looked.refl (l : Ladder) : Looked l l := ⟨le_rfl, le_rfl, rfl, rfl⟩

theorem Looked.trans {l l' l'' : Ladder} (h : Looked l l') (h' : Looked l' l'') : Looked l l'' :=
  ⟨h.reads.trans h'.reads, h.probes.trans h'.probes, h'.interval.trans h.interval,
    h'.names.trans h.names⟩

theorem looked_usable (l : Ladder) (tier : DeviceTier) : Looked l (l.usable env tier).2 := by
  unfold usable
  split
  · exact Looked.refl l
  · exact ⟨Nat.le_succ _, le_rfl, rfl, rfl⟩

theorem looked_probeTierCached (l : Ladder) (i : ℕ) (tier : DeviceTier) :
    Looked l (l.probeTierCached env i tier).2 := by
  unfold probeTierCached
  dsimp only
  split
  · exact ⟨Nat.le_succ _, le_rfl, rfl, rfl⟩
  · refine ⟨Nat.le_succ _, Nat.le_succ _, rfl, ?_⟩
    exact names_setTier l.tick i (fun _ => rfl)

theorem looked_eligible (l : Ladder) (i : ℕ) (tier : DeviceTier) :
    Looked l (l.eligible env i tier).2 := by
  have husable : Looked l (l.usable env tier).2 := looked_usable l tier
  unfold eligible
  split
  · rename_i l' heq
    rw [heq] at husable
    exact husable
  · rename_i l' heq
    rw [heq] at husable
    have hprobe : Looked l' (l'.probeTierCached env i tier).2 := looked_probeTierCached l' i tier
    split
    · rename_i l'' heq'
      rw [heq'] at hprobe
      exact husable.trans hprobe
    · rename_i l'' _ heq'
      rw [heq'] at hprobe
      exact husable.trans hprobe

theorem Standing.of_looked {l l' : Ladder} {tier : DeviceTier} (hclock : Monotone env.clock)
    (h : Standing env l tier) (hl : Looked l l') : Standing env l' tier where
  session := h.session
  served := h.served.trans (hclock hl.reads)
  cached := by
    intro hpos hvalid hfresh
    rw [hl.interval] at hpos hfresh
    have hlater : env.clock l.reads ≤ env.clock l'.reads := hclock hl.reads
    exact h.cached hpos hvalid (by omega)
  probed n hn := h.probed n (hl.probes.trans hn)

/-- A standing tier passes `select`'s look at it. -/
theorem Standing.eligible {l : Ladder} {tier : DeviceTier} (hclock : Monotone env.clock)
    (h : Standing env l tier) (i : ℕ) : (l.eligible env i tier).1 = true := by
  have husable : l.usable env tier = (true, l.tick) := by
    have hserved : ¬ env.clock l.reads < tier.quarantinedUntil := Int.not_lt.mpr h.served
    simp [usable, h.session, hserved]
  have htick : Standing env l.tick tier :=
    h.of_looked hclock ⟨Nat.le_succ _, le_rfl, rfl, rfl⟩
  have hprobe : (l.tick.probeTierCached env i tier).1 = .available := by
    unfold probeTierCached
    dsimp only
    split
    · rename_i hfresh
      exact htick.cached hfresh.1 hfresh.2.1 hfresh.2.2
    · exact htick.probed _ le_rfl
  unfold Ladder.eligible
  rw [husable]
  dsimp only
  cases hres : l.tick.probeTierCached env i tier with
  | mk result l' =>
      have havail : result = .available := by rw [hres] at hprobe; exact hprobe
      subst havail
      rfl

theorem active_activate (l : Ladder) (i : ℕ) (tier : DeviceTier) :
    (l.activate i tier).active = tier.name := by
  unfold activate
  dsimp only
  split <;> split <;> rfl

/-- `select` settles no later than the first standing tier. -/
theorem selectFrom_of_standing (hclock : Monotone env.clock) {tiers : List DeviceTier}
    {l : Ladder} {c : ℕ} {tier : DeviceTier} (hc : tiers[c]? = some tier)
    (hstand : Standing env l tier) (i : ℕ) :
    ∃ j chosen, j ≤ c ∧ tiers[j]? = some chosen ∧
      (selectFrom env i tiers l).1 = true ∧ (selectFrom env i tiers l).2.active = chosen.name := by
  induction tiers generalizing l c i with
  | nil => simp at hc
  | cons first rest ih =>
      unfold selectFrom
      cases heq : l.eligible env i first with
      | mk ok l' =>
          cases ok with
          | true => exact ⟨0, first, Nat.zero_le _, rfl, rfl, active_activate _ _ _⟩
          | false =>
              cases c with
              | zero =>
                  rw [List.getElem?_cons_zero, Option.some.injEq] at hc
                  subst hc
                  have hpass := hstand.eligible hclock i
                  rw [heq] at hpass
                  cases hpass
              | succ c =>
                  rw [List.getElem?_cons_succ] at hc
                  have hlooked : Looked l (l.eligible env i first).2 := looked_eligible l i first
                  rw [heq] at hlooked
                  obtain ⟨j, chosen, hj, hget, hok, hname⟩ :=
                    ih hc (hstand.of_looked hclock hlooked) (i + 1)
                  exact ⟨j + 1, chosen, by omega, hget, hok, hname⟩

end Ladder

/-- Remote stays the last rung of the ladder a worker builds, and `select` does not make it active
while the cpu tier stands. -/
structure RemoteStaysLast (order : List String) (narrowed : Bool) : Prop where
  floor : narrowed = true → "cpu" ∈ order
  below : ∀ (i j : ℕ), i < j → order[i]? = some "remote" → ∀ tier, order[j]? = some tier →
    tier = "remote"
  chosen : ∀ (env : Env) (l : Ladder), Monotone env.clock → l.names = order →
    ∀ (c : ℕ) (tier : DeviceTier), l.tiers[c]? = some tier → tier.name = "cpu" →
      l.Standing env tier → (l.select env).2.active ≠ "remote"

/-- Where remote stands nowhere but last, it is out of `select`'s reach while cpu stands. -/
theorem remoteStaysLast_of_dropLast {order : List String} {narrowed : Bool}
    (hfloor : narrowed = true → "cpu" ∈ order) (hlast : "remote" ∉ order.dropLast) :
    RemoteStaysLast order narrowed := by
  have hend : ∀ i : ℕ, order[i]? = some "remote" → i + 1 = order.length := by
    intro i hi
    obtain ⟨hlt, hget⟩ := List.getElem?_eq_some_iff.mp hi
    by_contra hne
    apply hlast
    rw [List.mem_iff_getElem?]
    refine ⟨i, ?_⟩
    rw [List.getElem?_dropLast, if_pos (by omega)]
    exact hi
  refine ⟨hfloor, ?_, ?_⟩
  · intro i j hij hi tier hj
    have hlen := hend i hi
    have hlt := (List.getElem?_eq_some_iff.mp hj).1
    omega
  · intro env l hclock hnames c tier hc hcpu hstand hactive
    obtain ⟨j, picked, hj, hget, -, hname⟩ :=
      Ladder.selectFrom_of_standing hclock hc hstand 0
    have hremote : order[j]? = some "remote" := by
      rw [← hnames, Ladder.names, List.getElem?_map, hget, Option.map_some, ← hname]
      exact congrArg some hactive
    have hlen := hend j hremote
    have hctier : order[c]? = some "cpu" := by
      rw [← hnames, Ladder.names, List.getElem?_map, hc, Option.map_some, hcpu]
    have hclt := (List.getElem?_eq_some_iff.mp hctier).1
    have hjc : j = c := by omega
    rw [hjc, hctier] at hremote
    exact absurd hremote (by decide)

/-- Dropping tiers moves nothing below remote. -/
theorem remote_notMem_dropLast_filter {configured : List String} {p : String → Bool}
    (hlast : "remote" ∉ configured.dropLast) :
    "remote" ∉ (configured.filter p).dropLast := by
  rcases List.eq_nil_or_concat configured with rfl | ⟨pre, last, rfl⟩
  · simp
  · rw [List.concat_eq_append, List.dropLast_concat] at hlast
    rw [List.concat_eq_append, List.filter_append]
    by_cases hkeep : p last = true
    · rw [List.filter_singleton, hkeep]
      simp [hlast]
    · have hnone : List.filter p [last] = [] := by simp [hkeep]
      rw [hnone, List.append_nil]
      intro hmem
      have hmem' := (List.dropLast_sublist _).subset hmem
      exact hlast (List.mem_of_mem_filter hmem')

/-- The tiers `ladderFrom` keeps of a configured ladder it narrows. -/
def keeps (forceCpu : Bool) (tier : String) : Bool :=
  !(if forceCpu then isLocalAccelerator tier else tier = "cuda")

theorem keeps_remote (forceCpu : Bool) : keeps forceCpu "remote" = true := by
  cases forceCpu <;> decide

theorem keeps_cpu (forceCpu : Bool) : keeps forceCpu "cpu" = true := by
  cases forceCpu <;> decide

theorem ladderFrom_of_narrowed {configured : List String} {noGpuSlot forceCpu : Bool}
    (h : (noGpuSlot || forceCpu) = true) :
    ladderFrom configured noGpuSlot forceCpu =
      if "cpu" ∈ configured then configured.filter (keeps forceCpu)
      else configured.filter (keeps forceCpu) ++ ["cpu"] := by
  have hnarrow : (!noGpuSlot && !forceCpu) = false := by
    cases noGpuSlot <;> cases forceCpu <;> simp_all
  have hmem : "cpu" ∈ configured.filter (keeps forceCpu) ↔ "cpu" ∈ configured := by
    rw [List.mem_filter]
    exact and_iff_left (keeps_cpu forceCpu)
  unfold ladderFrom
  rw [hnarrow]
  simp only [Bool.false_eq_true, if_false]
  exact if_congr hmem rfl rfl

theorem ladderFrom_of_not_narrowed {configured : List String} {noGpuSlot forceCpu : Bool}
    (h : (noGpuSlot || forceCpu) = false) :
    ladderFrom configured noGpuSlot forceCpu = configured := by
  rw [Bool.or_eq_false_iff] at h
  simp [ladderFrom, h.1, h.2]

/-- Remote stays the last rung of a ladder configured with remote nowhere but last exactly when
the ladder is not narrowed, or names cpu, or does not name remote. -/
theorem remoteStaysLast_iff {configured : List String}
    (hlast : "remote" ∉ configured.dropLast) (noGpuSlot forceCpu : Bool) :
    RemoteStaysLast (ladderFrom configured noGpuSlot forceCpu) (noGpuSlot || forceCpu) ↔
      (noGpuSlot || forceCpu) = false ∨ "cpu" ∈ configured ∨ "remote" ∉ configured := by
  cases hnarrow : noGpuSlot || forceCpu with
  | false =>
      rw [ladderFrom_of_not_narrowed hnarrow]
      refine iff_of_true (remoteStaysLast_of_dropLast ?_ hlast) (.inl rfl)
      intro h
      cases h
  | true =>
      rw [ladderFrom_of_narrowed hnarrow]
      by_cases hcpu : "cpu" ∈ configured
      · rw [if_pos hcpu]
        refine iff_of_true (remoteStaysLast_of_dropLast ?_ ?_) (.inr (.inl hcpu))
        · intro _
          exact List.mem_filter.mpr ⟨hcpu, keeps_cpu forceCpu⟩
        · exact remote_notMem_dropLast_filter hlast
      · rw [if_neg hcpu]
        constructor
        · intro hstays
          refine .inr (.inr ?_)
          intro hremote
          -- The appended floor stands below the kept remote tier.
          have hkept : "remote" ∈ configured.filter (keeps forceCpu) :=
            List.mem_filter.mpr ⟨hremote, keeps_remote forceCpu⟩
          obtain ⟨i, hi⟩ := List.mem_iff_getElem?.mp hkept
          have hlt := (List.getElem?_eq_some_iff.mp hi).1
          have hi' : (configured.filter (keeps forceCpu) ++ ["cpu"])[i]? = some "remote" := by
            rw [List.getElem?_append_left hlt]
            exact hi
          have hbelow := hstays.below i _ hlt hi' "cpu" List.getElem?_concat_length
          exact absurd hbelow (by decide)
        · intro hor
          have hremote : "remote" ∉ configured := by
            rcases hor with h | h | h
            · cases h
            · exact absurd h hcpu
            · exact h
          refine remoteStaysLast_of_dropLast (fun _ => List.mem_append_right _ (by simp)) ?_
          rw [List.dropLast_concat]
          intro hmem
          exact hremote (List.mem_of_mem_filter hmem)

theorem remoteStaysLast_shipped :
    RemoteStaysLast (ladderFrom ["cuda", "npu", "ane", "cpu", "remote"] true false)
        (true || false) ↔
      (true || false) = false ∨ "cpu" ∈ ["cuda", "npu", "ane", "cpu", "remote"] ∨
        "remote" ∉ ["cuda", "npu", "ane", "cpu", "remote"] :=
  remoteStaysLast_iff (by decide) true false

/-- A worker without a gpu slot, configured with cuda and remote, sends its prompts to remote with
the cpu tier standing below. -/
theorem remote_above_cpu :
    ¬ ∀ (configured : List String), "remote" ∉ configured.dropLast →
      ∀ noGpuSlot forceCpu : Bool,
        RemoteStaysLast (ladderFrom configured noGpuSlot forceCpu) (noGpuSlot || forceCpu) := by
  intro hall
  have hstays := hall ["cuda", "remote"] (by decide) true false
  let env : Env := ⟨fun _ => 0, fun _ _ => .available⟩
  let l : Ladder := .ofOrder ["remote", "cpu"] 30000 0
  have hcpu : l.tiers[1]? = some { name := "cpu" } := rfl
  have hstand : l.Standing env { name := "cpu" } :=
    ⟨rfl, le_rfl, fun h => absurd h (by decide), fun _ _ => rfl⟩
  exact hstays.chosen env l monotone_const (by decide) 1 _ hcpu rfl hstand (by decide)

end ServeInfer.Device
