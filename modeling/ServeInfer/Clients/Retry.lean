import Mathlib.Data.Rat.Defs
import Mathlib.Algebra.Order.Field.Rat
import ServeInfer.Clients.ChatStream

/-!
# The retry policy of the clients

Which errors are worth another attempt, and how long a client waits before it.
-/

namespace ServeInfer.Clients

/-- A retry policy, its durations in milliseconds. -/
structure RetryPolicy where
  attempts : ℕ
  baseMs : ℚ
  maxMs : ℚ
  deriving DecidableEq

/-- `RETRY_DEFAULTS`. -/
def retryDefaults : RetryPolicy where
  attempts := 3
  baseMs := 500
  maxMs := 8000

/-- `RETRYABLE_ERRORS`. -/
def retryableErrors : List String :=
  ["worker_crashed", "no_ready_workers", "queue_timeout", "exec_timeout", "scheduler_overloaded"]

/-- `isRetryable`; a payload is an object or `undefined`. -/
def isRetryable (payload : Option Json) : Bool :=
  match payload with
  | none => false
  | some payload =>
      (match payload.get? "retryable" with
        | some (.bool b) => b
        | _ => false) ||
      match payload.get? "error" with
      | some (.str s) => retryableErrors.any fun name => Json.units name = s
      | _ => false

/-- `backoffMs`; `hintSeconds` is `Number(payload?.retryAfterSeconds)` where that is finite, and
`random` what `Math.random` returns. -/
def backoffMs (attempt : ℕ) (hintSeconds : Option ℚ) (random : ℚ) (policy : RetryPolicy) : ℚ :=
  match hintSeconds.filter (0 < ·) with
  | some hint => min (hint * 1000) policy.maxMs
  | none =>
      let exponential := policy.baseMs * 2 ^ (attempt - 1)
      min (exponential + random * policy.baseMs) policy.maxMs

theorem backoffMs_le (attempt : ℕ) (hintSeconds : Option ℚ) (random : ℚ) (policy : RetryPolicy) :
    backoffMs attempt hintSeconds random policy ≤ policy.maxMs := by
  unfold backoffMs
  split
  · exact min_le_right _ _
  · exact min_le_right _ _

end ServeInfer.Clients
