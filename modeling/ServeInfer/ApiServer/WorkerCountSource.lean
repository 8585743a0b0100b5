import ServeInfer.ApiServer.Types
import ServeInfer.Lib.JsonNumber

/-!
# Where the worker count comes from

The api-server's side of the published configuration: the count in the file, or the
configured ceiling and the reason for it. A JavaScript number is the rational that it
is, where `none` is an infinity or no number.
-/

namespace ServeInfer.ApiServer

open Json (units)

/-- What `readFileSync` does: it returns the file, or it throws. -/
inductive FileRead
  | data (raw : List UInt8)
  | threw (code : Option JsString) (message : JsString)

def maxSaneWorkerCount : ℤ := 1024

/-- `readModelConfig`: the configuration, or the reason why there is none. -/
def readModelConfig (readFile : JsString → FileRead) (modelConfigPath : Option JsString) :
    Except JsString Json :=
  match modelConfigPath.filter (!·.isEmpty) with
  | none => .error (units "no EDGE_MODEL_CONFIG_PATH set")
  | some path =>
      match readFile path with
      | .threw code message =>
          if code = some (units "ENOENT") then .error (units "model config not present")
          else
            .error (units "model config unreadable (" ++
              (code.filter (!·.isEmpty)).getD message ++ units ")")
      | .data raw =>
          match Json.parse (Utf8.decode raw) with
          | none => .error (units "model config is not valid JSON")
          | some (.obj members) => .ok (.obj members)
          | some _ => .error (units "model config is not a JSON object")

inductive CountSource
  | env
  | modelConfig
  deriving DecidableEq, Repr

/-- What `resolveWorkerCount` returns. -/
structure WorkerCountDecision where
  configuredCount : Option ℚ
  effectiveCount : Option ℤ := none
  clamped : Bool := false
  modelConfigPath : Option JsString
  workerCount : Option ℚ
  source : CountSource := .env
  reason : Option JsString
  deriving DecidableEq, Repr

/-- The value of a number that is an integer. -/
def integerOf : Json → Option ℤ
  | .num literal => Binary64.integer? (Json.numberValue literal)
  | _ => none

/-- What is made of the `workerCount` of a file; `stringify` is `JSON.stringify`. -/
def judgeWorkerCount (stringify : Json → JsString) (base : WorkerCountDecision) (ceiling : ℤ)
    (value : Json) : WorkerCountDecision :=
  match integerOf value with
  | none => { base with
      reason := some (units "model config workerCount is not an integer (" ++ stringify value ++
        units ")") }
  | some effective =>
      if effective ≤ 0 then { base with
        reason := some (units "model config workerCount is not positive (" ++ stringify value ++
          units ")") }
      else if maxSaneWorkerCount < effective then { base with
        reason := some (units "model config workerCount " ++ stringify value ++
          units " exceeds the sane maximum 1024") }
      else if ceiling < effective then { base with
        effectiveCount := some effective
        clamped := true
        reason := some (units "model config workerCount " ++ stringify value ++
          units " exceeds the configured ceiling " ++ Json.decimalUnits ceiling) }
      else { base with
        workerCount := some effective
        effectiveCount := some effective
        source := .modelConfig
        reason := none }

/-- `resolveWorkerCount`. -/
def resolveWorkerCount (stringify : Json → JsString) (readFile : JsString → FileRead)
    (ceiling : Option ℚ) (modelConfigPath : Option JsString) : WorkerCountDecision :=
  let base : WorkerCountDecision := {
    configuredCount := ceiling
    modelConfigPath := modelConfigPath.filter (!·.isEmpty)
    workerCount := ceiling
    reason := some (units "EDGE_WORKER_COUNT is not a positive integer") }
  match Binary64.integer? ceiling with
  | none => base
  | some count =>
      if count ≤ 0 then base
      else
        match readModelConfig readFile modelConfigPath with
        | .error reason => { base with reason := some reason }
        | .ok config =>
            match config.get? "workerCount" with
            | none => { base with reason := some (units "model config has no workerCount key") }
            | some value => judgeWorkerCount stringify base count value

section Decisions

variable {stringify : Json → JsString} {readFile : JsString → FileRead} {path : JsString}
  {raw : List UInt8} {count effective : ℤ}

theorem integer?_intCast (n : ℤ) : Binary64.integer? (some (n : ℚ)) = some n := by
  simp [Binary64.integer?]

theorem integerOf_decimalUnits (hlow : 0 ≤ effective) (hhigh : effective ≤ 1024) :
    integerOf (.num (Json.decimalUnits effective)) = some effective := by
  rw [integerOf, Json.numberValue_decimalUnits (by omega), integer?_intCast]

theorem judgeWorkerCount_eq (base : WorkerCountDecision) (hpos : 0 < effective)
    (hle : effective ≤ count) (hsane : count ≤ 1024) :
    judgeWorkerCount stringify base count (.num (Json.decimalUnits effective)) = { base with
      workerCount := some effective
      effectiveCount := some effective
      source := .modelConfig
      reason := none } := by
  rw [judgeWorkerCount, integerOf_decimalUnits (by omega) (by omega)]
  dsimp only
  rw [if_neg (by omega), if_neg (by rw [maxSaneWorkerCount]; omega), if_neg (by omega)]

theorem readModelConfig_data (hpath : path ≠ []) (hfile : readFile path = .data raw) :
    readModelConfig readFile (some path) =
      match Json.parse (Utf8.decode raw) with
      | none => .error (units "model config is not valid JSON")
      | some (.obj members) => .ok (.obj members)
      | some _ => .error (units "model config is not a JSON object") := by
  have hsome : (some path).filter (!·.isEmpty) = some path := by simp [hpath]
  rw [readModelConfig, hsome]
  dsimp only
  rw [hfile]

/-- A file that names a count in range decides. -/
theorem resolveWorkerCount_published (hcount : 0 < count) (hpos : 0 < effective)
    (hle : effective ≤ count) (hsane : count ≤ 1024) (hpath : path ≠ [])
    (hfile : readFile path = .data raw) {members : List (JsString × Json)}
    (hparse : Json.parse (Utf8.decode raw) = some (.obj members))
    (hget : Json.get? (.obj members) "workerCount" = some (.num (Json.decimalUnits effective))) :
    (resolveWorkerCount stringify readFile (some count) (some path)).workerCount =
        some (effective : ℚ) ∧
      (resolveWorkerCount stringify readFile (some count) (some path)).source = .modelConfig := by
  have hread : readModelConfig readFile (some path) = .ok (.obj members) := by
    rw [readModelConfig_data hpath hfile, hparse]
  rw [resolveWorkerCount, integer?_intCast]
  dsimp only
  rw [if_neg (by omega), hread]
  dsimp only
  rw [hget]
  dsimp only
  rw [judgeWorkerCount_eq _ hpos hle hsane]
  exact ⟨rfl, rfl⟩

/-- A file that cannot be read leaves the ceiling. -/
theorem resolveWorkerCount_unreadable (hcount : 0 < count) (hpath : path ≠ [])
    (hfile : readFile path = .data raw) (hparse : Json.parse (Utf8.decode raw) = none) :
    (resolveWorkerCount stringify readFile (some count) (some path)).workerCount =
        some (count : ℚ) ∧
      (resolveWorkerCount stringify readFile (some count) (some path)).source = .env := by
  have hread : readModelConfig readFile (some path) =
      .error (units "model config is not valid JSON") := by
    rw [readModelConfig_data hpath hfile, hparse]
  rw [resolveWorkerCount, integer?_intCast]
  dsimp only
  rw [if_neg (by omega), hread]
  exact ⟨rfl, rfl⟩

end Decisions

end ServeInfer.ApiServer
