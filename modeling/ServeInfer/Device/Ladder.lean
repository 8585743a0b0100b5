import Mathlib.Data.Int.ConditionallyCompleteOrder
import Mathlib.Data.Rat.Floor
import ServeInfer.Lib.ForallMem

/-!
# The device ladder

A worker's tiers in order of preference, with the faults and the quarantine of
each. The steady clock and the probes are read from outside: both are functions
of the number of readings so far, so two readings may differ.
-/

namespace ServeInfer.Device

inductive ProbeResult
  | available
  | wrongPlatform
  | runtimeMissing
  | deviceMissing
  | policyDisabled
  deriving DecidableEq, Repr

inductive DeviceFault
  | none
  | unavailable
  | removed
  | unsupportedOp
  | runtimeError
  deriving DecidableEq, Repr

/-- `deviceFaultName`. -/
def DeviceFault.name : DeviceFault → String
  | none => "none"
  | unavailable => "device_unavailable"
  | removed => "device_removed"
  | unsupportedOp => "unsupported_operation"
  | runtimeError => "runtime_error"

/-- `DeviceTier`; time points are clock ticks since the clock's epoch. -/
structure DeviceTier where
  name : String
  consecutiveFaults : ℕ := 0
  lastFault : DeviceFault := .none
  sessionFatal : Bool := false
  lastFaultDetail : String := ""
  quarantinedUntil : ℤ := 0
  probeCachedAt : ℤ := 0
  probeCacheValid : Bool := false
  cachedProbe : ProbeResult := .available
  deriving DecidableEq, Repr

/-- The fields of the active tier after a fault, given the clock. -/
def DeviceTier.faulted (tier : DeviceTier) (fault : DeviceFault) (detail : String)
    (until' : ℤ) : DeviceTier :=
  { tier with
    probeCacheValid := false
    consecutiveFaults := tier.consecutiveFaults + 1
    lastFault := fault
    lastFaultDetail := detail
    quarantinedUntil := until'
    sessionFatal := tier.sessionFatal || fault = .removed }

/-- The steady clock and the probe function, by the number of earlier readings. -/
structure Env where
  clock : ℕ → ℤ
  probe : ℕ → String → ProbeResult

/-- `DeviceLadder`, and how often it has read the clock and called the probe. -/
structure Ladder where
  tiers : List DeviceTier
  activeIndex : ℕ := 0
  baselineIndex : ℕ := 0
  baselineSet : Bool := false
  active : String := ""
  degradedReason : String := ""
  quarantine : ℤ
  probeInterval : ℤ
  reads : ℕ := 0
  probes : ℕ := 0
  deriving DecidableEq, Repr

/-- Clock ticks in a millisecond. -/
def ticksPerMs : ℤ := 1000000

/-- The constructor. -/
def Ladder.ofOrder (order : List String) (quarantineMs probeIntervalMs : ℤ) : Ladder where
  tiers := order.map fun name => { name := name }
  quarantine := max 0 quarantineMs * ticksPerMs
  probeInterval := max 0 probeIntervalMs * ticksPerMs

namespace Ladder

def names (l : Ladder) : List String := l.tiers.map DeviceTier.name

def degraded (l : Ladder) : Bool := l.activeIndex > l.baselineIndex

/-- The first index of the name, or the number of tiers. -/
def indexOf (l : Ladder) (name : String) : ℕ := l.tiers.findIdx fun tier => tier.name = name

def lastFault (l : Ladder) (index : ℕ) : DeviceFault :=
  (l.tiers[index]?.map DeviceTier.lastFault).getD .none

def setTier (l : Ladder) (i : ℕ) (f : DeviceTier → DeviceTier) : Ladder :=
  { l with tiers := l.tiers.modify i f }

theorem names_setTier (l : Ladder) (i : ℕ) {f : DeviceTier → DeviceTier}
    (hf : ∀ tier, (f tier).name = tier.name) : (l.setTier i f).names = l.names := by
  refine List.ext_getElem? fun k => ?_
  simp only [names, setTier, List.getElem?_map, List.getElem?_modify]
  cases l.tiers[k]? with
  | none => rfl
  | some tier => by_cases hk : i = k <;> simp [hk, hf]

/-- One more reading of the clock has been taken. -/
def tick (l : Ladder) : Ladder := { l with reads := l.reads + 1 }

def invalidateProbeCache (l : Ladder) : Ladder :=
  { l with tiers := l.tiers.map fun tier => { tier with probeCacheValid := false } }

def beginSession (l : Ladder) : Ladder :=
  { l with tiers := l.tiers.map fun tier =>
      { tier with sessionFatal := false, quarantinedUntil := 0, probeCacheValid := false } }

variable (env : Env)

/-- `usable`; a session-fatal tier is refused before the clock is read. -/
def usable (l : Ladder) (tier : DeviceTier) : Bool × Ladder :=
  if tier.sessionFatal then (false, l)
  else (¬ env.clock l.reads < tier.quarantinedUntil, l.tick)

/-- `probeTierCached`; an interval of 0 turns the cache off. -/
def probeTierCached (l : Ladder) (i : ℕ) (tier : DeviceTier) : ProbeResult × Ladder :=
  let now := env.clock l.reads
  let l := l.tick
  if l.probeInterval > 0 ∧ tier.probeCacheValid = true ∧
      now - tier.probeCachedAt < l.probeInterval then
    (tier.cachedProbe, l)
  else
    let result := env.probe l.probes tier.name
    (result, { l.setTier i fun tier =>
        { tier with cachedProbe := result, probeCachedAt := now, probeCacheValid := true } with
      probes := l.probes + 1 })

/-- The body of `select`'s loop: is this tier usable and available? -/
def eligible (l : Ladder) (i : ℕ) (tier : DeviceTier) : Bool × Ladder :=
  match l.usable env tier with
  | (false, l) => (false, l)
  | (true, l) =>
      match l.probeTierCached env i tier with
      | (.available, l) => (true, l)
      | (_, l) => (false, l)

/-- `select`'s loop has stopped at this tier. -/
def activate (l : Ladder) (i : ℕ) (tier : DeviceTier) : Ladder :=
  let l := { l with activeIndex := i, active := tier.name }
  let l := if l.baselineSet then l else { l with baselineIndex := i, baselineSet := true }
  if l.activeIndex ≤ l.baselineIndex then { l with degradedReason := "" } else l

/-- `select` over the tiers from an index on. -/
def selectFrom (i : ℕ) : List DeviceTier → Ladder → Bool × Ladder
  | [], l => (false, { l with active := "" })
  | tier :: rest, l =>
      match l.eligible env i tier with
      | (true, l) => (true, l.activate i tier)
      | (false, l) => selectFrom (i + 1) rest l

/-- Looking at one tier changes no other, so the loop may read the tiers beforehand. -/
def select (l : Ladder) : Bool × Ladder := selectFrom env 0 l.tiers l

/-- `reportFault`; true when a lower tier took over. -/
def reportFault (l : Ladder) (fault : DeviceFault) (detail : String) : Bool × Ladder :=
  match l.active.isEmpty, l.tiers[l.activeIndex]? with
  | false, some tier =>
      let until' := env.clock l.reads + l.quarantine
      let previousIndex := l.activeIndex
      let previousActive := l.active
      let marked := l.tick.setTier previousIndex fun tier => tier.faulted fault detail until'
      match select env marked with
      | (true, l) =>
          if l.activeIndex ≤ previousIndex then
            (false, { l with activeIndex := previousIndex, active := previousActive })
          else (true, { l with degradedReason := tier.name ++ ":" ++ fault.name })
      | (false, l) =>
          (false, { l with activeIndex := previousIndex, active := previousActive })
  | _, _ => (false, l)

/-- `recoverEligibleTier` over the tiers above the active one, from an index on. -/
def recoverFrom (i : ℕ) : List DeviceTier → Ladder → Bool × Ladder
  | [], l => (false, l)
  | tier :: rest, l =>
      if tier.consecutiveFaults = 0 then recoverFrom (i + 1) rest l
      else
        match l.eligible env i tier with
        | (true, l) =>
            let l := { l with activeIndex := i, active := tier.name }
            (true, if l.activeIndex ≤ l.baselineIndex then { l with degradedReason := "" } else l)
        | (false, l) => recoverFrom (i + 1) rest l

/-- `recoverEligibleTier`: only ever moves up the ladder. -/
def recoverEligibleTier (l : Ladder) : Bool × Ladder :=
  if l.active.isEmpty || l.activeIndex = 0 then (false, l)
  else recoverFrom env 0 (l.tiers.take l.activeIndex) l

end Ladder

end ServeInfer.Device
