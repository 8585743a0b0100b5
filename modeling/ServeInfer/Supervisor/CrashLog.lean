import ServeInfer.Lib.OrderedMap
import ServeInfer.Lib.Text

/-!
# Crash accounting

Two counters decide whether a dead process is started again: a sliding window
in memory, one per process, and the last minute of the crash log on disk.
-/

namespace ServeInfer.Supervisor

/-- `ProcessType`. -/
inductive ProcessType
  | modelCache
  | apiServer
  | worker
  deriving DecidableEq, Repr

/-- `processTypeToString`. -/
def ProcessType.toText : ProcessType → List Char
  | modelCache => "model-cache".toList
  | apiServer => "api-server".toList
  | worker => "worker".toList

/-- `CircuitBreaker::history_`; times are readings of the steady clock. -/
abbrev CircuitBreaker := OrderedMap ℤ (List ℤ)

namespace CircuitBreaker

def crashThreshold : ℕ := 3

/-- A minute, in clock ticks. -/
def window : ℤ := 60000000000

/-- `registerCrash`; entries older than the window are dropped from the front. -/
def registerCrash (breaker : CircuitBreaker) (key now : ℤ) : Bool × CircuitBreaker :=
  let queue := ((breaker.get? key).getD [] ++ [now]).dropWhile fun t => t < now - window
  (crashThreshold ≤ queue.length, breaker.set key queue)

end CircuitBreaker

/-- `WIFEXITED` and `WEXITSTATUS` of a wait status. -/
def exitCode? (status : ℕ) : Option ℕ :=
  if status % 128 = 0 then some (status / 256 % 256) else none

/-- `statusToReason`; `waitpid` without `WUNTRACED` reports no stopped process. -/
def statusToReason (status : ℕ) : List Char :=
  match exitCode? status with
  | some code => "exit_".toList ++ Text.decimal code
  | none => "signal_".toList ++ Text.decimal (status % 128 : ℕ)

/-- `Supervisor::jsonEscape`. -/
def jsonEscape (input : List Char) : List Char :=
  input.flatMap fun ch =>
    match ch with
    | '\\' => ['\\', '\\']
    | '"' => ['\\', '"']
    | '\n' => ['\\', 'n']
    | '\r' => ['\\', 'r']
    | '\t' => ['\\', 't']
    | ch => [ch]

/-- The line `writeCrashLog` appends. -/
def crashLine (ts : ℤ) (pid : ℕ) (type : ProcessType) (workerId : ℤ) (status : ℕ) : List Char :=
  "\x7b\"ts\":".toList ++ Text.decimal ts ++ ",\"pid\":".toList ++ Text.decimal pid ++
    ",\"type\":\"".toList ++ type.toText ++ "\",\"workerId\":".toList ++ Text.decimal workerId ++
    ",\"status\":".toList ++ Text.decimal status ++ ",\"reason\":\"".toList ++
    jsonEscape (statusToReason status) ++ "\"\x7d".toList

/-- `regex_search`: the answer of a matcher at the first place where it matches. -/
def regexSearch {β : Type} (pattern : List Char → Option β) : List Char → Option β
  | [] => pattern []
  | c :: cs => (pattern (c :: cs)).orElse fun _ => regexSearch pattern cs

/-- The regular expression of a key: the key in quotes and a colon, with spaces around it. -/
def matchKey (key : String) (text : List Char) : Option (List Char) :=
  let quoted := '"' :: (key.toList ++ ['"'])
  if quoted.isPrefixOf text then
    match (text.drop quoted.length).dropWhile Text.isSpace with
    | ':' :: rest => some (rest.dropWhile Text.isSpace)
    | _ => none
  else none

def matchNumber (key : String) (text : List Char) : Option ℤ :=
  (matchKey key text).bind fun rest =>
    let digits := rest.takeWhile Char.isDigit
    if digits = [] then none else some (Nat.ofDigitChars 10 digits 0)

def matchField (key : String) (value text : List Char) : Option Unit :=
  (matchKey key text).bind fun rest => if value.isPrefixOf rest then some () else none

/-- Does this line count against the process? -/
def countsAgainst (type : ProcessType) (workerId minTs : ℤ) (line : List Char) : Bool :=
  match regexSearch (matchNumber "ts") line with
  | none => false
  | some ts =>
      minTs ≤ ts &&
        (regexSearch (matchField "type" ('"' :: (type.toText ++ ['"']))) line).isSome &&
        (type ≠ .worker ||
          (regexSearch (matchField "workerId" (Text.decimal workerId)) line).isSome)

/-- `crashLimitOpenFromDisk`, given the log and the clock in seconds. -/
def crashLimitOpenFromDisk (log : List (List Char)) (type : ProcessType) (workerId now : ℤ) :
    Bool :=
  3 ≤ log.countP (countsAgainst type workerId (now - 60))

end ServeInfer.Supervisor
