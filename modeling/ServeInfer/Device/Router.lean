import ServeInfer.Device.LadderRuns

/-!
# The backend router

`BackendRouter` walks a request down the ladder until a tier answers. The
backends and the fallback hook are read from outside by the number of earlier
calls. The router keeps a log of the tiers it tried, of the hook's answers and of
the moves of its ladder.
-/

namespace ServeInfer.Device

/-- `BackendExecution`. -/
structure BackendExecution where
  text : String := ""
  fault : DeviceFault := .none
  detail : String := ""
  vendorStatus : ℤ := 0
  deriving DecidableEq, Repr

def BackendExecution.ok (e : BackendExecution) : Bool := e.fault = .none

/-- `RouteResult`. -/
structure RouteResult where
  text : String := ""
  device : String := ""
  degraded : Bool := false
  degradedReason : String := ""
  fault : DeviceFault := .none
  detail : String := ""
  deriving DecidableEq, Repr

def RouteResult.ok (r : RouteResult) : Bool := r.fault = .none

/-- The ladder's environment, the adapters' answers to `executable` and `execute` with the tokens
they emit, and the hook's answers with the tiers whose state it reads, by number of calls. -/
structure RouterEnv extends Env where
  executable : ℕ → String → Bool
  execute : ℕ → String → String → Bool → List String × BackendExecution
  onFallback : ℕ → String → String → Bool
  hookReads : ℕ → List ℕ

/-- One turn of `route`'s loop: the tier, the number of the `execute` call where the tier has an
adapter, the tokens that reached the caller's sink and the outcome. -/
structure Attempt where
  index : ℕ
  tier : String
  call : Option ℕ
  tokens : List String
  execution : BackendExecution
  deriving DecidableEq, Repr

/-- What the router logs: a tier tried, an answer of the hook, or the ladder before and after a
move to another tier and whether it was a recovery. -/
inductive RouterEvent
  | tried (attempt : Attempt)
  | hooked (previous next : String) (answer : Bool)
  | moved (before after : Ladder) (recovered : Bool)
  deriving DecidableEq, Repr

/-- `BackendRouter`: the ladder, the names with an adapter, whether a hook is set, how often the
adapters and the hook have been called, and the log. -/
structure Router where
  ladder : Ladder
  backends : List String := []
  hookSet : Bool := false
  executions : ℕ := 0
  hookCalls : ℕ := 0
  streamed : List String := []
  log : List RouterEvent := []
  deriving DecidableEq, Repr

namespace Router

variable (env : RouterEnv)

/-- The ladder has been called; a tier that became active is a move. -/
def settle (r : Router) (l : Ladder) (recovered : Bool) : Router :=
  { r with
    ladder := l
    log :=
      if l.active.isEmpty || (l.active = r.ladder.active && l.activeIndex = r.ladder.activeIndex)
      then r.log else r.log ++ [.moved r.ladder l recovered] }

/-- A log line has asked for the active tier's state. -/
def logState (r : Router) : Router :=
  { r with ladder := r.ladder.tierState env.toEnv r.ladder.activeIndex }

/-- A log line has asked for the whole ladder's state. -/
def logLadder (r : Router) : Router := { r with ladder := r.ladder.toJson env.toEnv }

/-- `onFallback_`, which also reads tier states for its log lines; without a hook the move stands. -/
def callHook (r : Router) (previous next : String) : Bool × Router :=
  if r.hookSet then
    (env.onFallback r.hookCalls previous next,
      { r with
        ladder := (env.hookReads r.hookCalls).foldl (·.tierState env.toEnv ·) r.ladder
        hookCalls := r.hookCalls + 1
        log := r.log ++ [.hooked previous next (env.onFallback r.hookCalls previous next)] })
  else (true, r)

/-- `registerBackend`, of an adapter that is not null. -/
def registerBackend (r : Router) (name : String) : Router :=
  { r with backends := name :: r.backends, ladder := r.ladder.invalidateProbeCache }

/-- `select`; both log lines read tier states. -/
def select (r : Router) : Bool × Router :=
  match r.ladder.select env.toEnv with
  | (false, l) => (false, (r.settle l false).logLadder env)
  | (true, l) => (true, (r.settle l false).logState env)

/-- `attemptRecovery`; the answer of the corrective hook call is dropped. -/
def attemptRecovery (r : Router) : Bool × Router :=
  let previous := r.ladder.active
  match r.ladder.recoverEligibleTier env.toEnv with
  | (false, l) => (false, r.settle l true)
  | (true, l) =>
      let r := (r.settle l true).logState env
      let next := l.active
      match r.callHook env previous next with
      | (true, r) => (true, r)
      | (false, r) =>
          match r.ladder.reportFault env.toEnv .runtimeError
              ("engine could not be brought up on recovered tier " ++ next) with
          | (true, l) => (false, ((r.settle l false).callHook env next l.active).2)
          | (false, l) => (false, r.settle l false)

/-- What `route` makes of a turn: an adapter that cannot execute does not succeed. -/
def outcome (tier : String) (executable : Bool) (execution : BackendExecution) :
    BackendExecution :=
  if !executable && execution.ok then
    { execution with
      fault := .unavailable
      detail := "adapter for " ++ tier ++ " reported success but cannot execute" }
  else execution

/-- The turn of the loop on the active tier. -/
def attempt (r : Router) (prompt : String) (onToken : Bool) : Attempt :=
  let tier := r.ladder.active
  if tier ∈ r.backends then
    let out := env.execute r.executions tier prompt onToken
    { index := r.ladder.activeIndex
      tier := tier
      call := some r.executions
      tokens := if onToken then out.1 else []
      execution := outcome tier (env.executable r.executions tier) out.2 }
  else
    { index := r.ladder.activeIndex
      tier := tier
      call := none
      tokens := []
      execution :=
        { fault := .unavailable
          detail := "no backend adapter registered for tier " ++ tier } }

/-- The router after a turn; the adapter hands its tokens to the caller's sink as it goes. -/
def tried (r : Router) (a : Attempt) : Router :=
  { r with
    executions := if a.call.isSome then r.executions + 1 else r.executions
    streamed := r.streamed ++ a.tokens
    log := r.log ++ [.tried a] }

/-- `route`'s loop. -/
def walk (prompt : String) (onToken : Bool) : ℕ → Router → RouteResult × Router
  | 0, r =>
      ({ fault := .runtimeError
         detail := "ladder did not settle on a usable tier"
         device := r.ladder.active }, r)
  | attempts + 1, r =>
      let a := r.attempt env prompt onToken
      let r := r.tried a
      if a.execution.ok then
        ({ text := a.execution.text
           device := a.tier
           degraded := r.ladder.degraded
           degradedReason := r.ladder.degradedReason }, r)
      else
        match r.ladder.reportFault env.toEnv a.execution.fault a.execution.detail with
        | (false, l) =>
            ({ text := a.execution.text
               device := a.tier
               fault := a.execution.fault
               detail := a.execution.detail
               degraded := l.degraded
               degradedReason := l.degradedReason }, r.settle l false)
        | (true, l) =>
            match ((r.settle l false).logState env).callHook env a.tier l.active with
            | (false, r) =>
                ({ text := a.execution.text
                   device := r.ladder.active
                   fault := a.execution.fault
                   detail := a.execution.detail
                   degraded := r.ladder.degraded
                   degradedReason := r.ladder.degradedReason }, r)
            | (true, r) => walk prompt onToken attempts r

/-- `route` from where a tier is active. -/
def routeFrom (r : Router) (prompt : String) (onToken : Bool) : RouteResult × Router :=
  let r := (r.attemptRecovery env).2
  walk env prompt onToken (r.ladder.tiers.length + 1) r

/-- `route`; `onToken` says whether the caller gave a sink. -/
def route (r : Router) (prompt : String) (onToken : Bool) : RouteResult × Router :=
  if r.ladder.active.isEmpty then
    match r.select env with
    | (false, r) =>
        ({ fault := .unavailable, detail := "no usable tier in the ladder" }, r)
    | (true, r) => r.routeFrom env prompt onToken
  else r.routeFrom env prompt onToken

end Router

/-- The public methods; `ladder` is a call on the ladder the router hands out. -/
inductive RouterAction
  | registerBackend (name : String)
  | setFallbackHook (isSet : Bool)
  | select
  | beginSession
  | attemptRecovery
  | route (prompt : String) (onToken : Bool)
  | ladder (a : LadderAction)
  deriving DecidableEq, Repr

namespace Router

def step (env : RouterEnv) (r : Router) : RouterAction → Option Router
  | .registerBackend name => some (r.registerBackend name)
  | .setFallbackHook isSet => some { r with hookSet := isSet }
  | .select => some (r.select env).2
  | .beginSession => some { r with ladder := r.ladder.beginSession }
  | .attemptRecovery => some (r.attemptRecovery env).2
  | .route prompt onToken => some (r.route env prompt onToken).2
  | .ladder a => (r.ladder.step env.toEnv a).map (r.settle · (a = .recoverEligibleTier))

/-- The constructor. -/
def ofOrder (order : List String) (quarantineMs probeIntervalMs : ℤ) : Router where
  ladder := .ofOrder order quarantineMs probeIntervalMs

end Router

end ServeInfer.Device
