import ServeInfer.Lib.CString
import ServeInfer.Lib.Json
import ServeInfer.Lib.OrderedMap

/-!
# The environment of the JavaScript processes

`.env.example` and `.env` fill in what the process was not started with. The module keeps one
`process.env` and reads the two files before its first answer. The variables are C strings: what
is set or asked for comes as `cString` keeps it.
-/

namespace ServeInfer.Config

abbrev JsString := List Utf8.CodeUnit

@[ext] structure EnvEntry where
  key : JsString
  value : JsString
  deriving DecidableEq

/-- An entry as `process.env` keeps it. -/
def EnvEntry.stored (e : EnvEntry) : EnvEntry where
  key := Utf8.cString e.key
  value := Utf8.cString e.value

/-- `text.split(/\r?\n/)`. -/
def splitLines : JsString → List JsString
  | [] => [[]]
  | 0x0D :: 0x0A :: rest => [] :: splitLines rest
  | u :: rest =>
      if u = 0x0A then [] :: splitLines rest
      else
        match splitLines rest with
        | [] => [[u]]
        | line :: lines => (u :: line) :: lines

/-- A value between two equal quotes is what stands between them. -/
def unquote (value : JsString) : JsString :=
  match value.head? with
  | none => value
  | some quote =>
      if (quote = 0x22 || quote = 0x27) && value.getLast? = some quote then value.tail.dropLast
      else value

def parseEnvLine (line : JsString) : Option EnvEntry :=
  let trimmed := Json.trim line
  if trimmed.isEmpty || trimmed.head? = some 0x23 || !trimmed.contains 0x3D then none
  else
    let key := Json.trim (trimmed.takeWhile (· != 0x3D))
    let value := Json.trim ((trimmed.dropWhile (· != 0x3D)).drop 1)
    if key.isEmpty then none
    else some { key := key, value := unquote value }

/-- One of the two files, as `existsSync` and `readFileSync` find it. -/
inductive EnvFile where
  | absent
  | unreadable
  | text (contents : JsString)

/-- `.env.example` and `.env`. -/
structure EnvFiles where
  exampleFile : EnvFile
  envFile : EnvFile

/-- What `process.env[name]` is where it is not `undefined`. -/
inductive EnvValue where
  | text (value : JsString)
  | inherited (name : JsString)
  deriving DecidableEq

inductive EnvError where
  | unreadable (filename : String)
  | error (message : JsString)
  deriving DecidableEq

/-- The names that every object inherits. -/
def inheritedNames : List JsString :=
  ["constructor", "hasOwnProperty", "isPrototypeOf", "propertyIsEnumerable", "toLocaleString",
    "toString", "valueOf", "__defineGetter__", "__defineSetter__", "__lookupGetter__",
    "__lookupSetter__", "__proto__"].map Json.units

/-- Reading a property whose own value is given. -/
def readProperty (name : JsString) : Option JsString → Option EnvValue
  | some value => some (.text value)
  | none => if inheritedNames.contains name then some (.inherited name) else none

/-- The module's variables and the `process.env` it writes to, as it shows itself. -/
structure ProcessEnv where
  initialKeys : List JsString
  loaded : Bool
  env : OrderedMap JsString JsString
  deriving DecidableEq

namespace ProcessEnv

/-- The module as it is required, in a process started with `initial`. -/
def start (initial : OrderedMap JsString JsString) : ProcessEnv where
  initialKeys := initial.keys
  loaded := false
  env := initial

/-- `process.env[name]`. -/
def read (s : ProcessEnv) (name : JsString) : Option EnvValue :=
  readProperty name (s.env.get? (Utf8.cString name))

/-- `process.env[parsed.key] = parsed.value`; there is no variable without a name. -/
def set (s : ProcessEnv) (parsed : EnvEntry) : ProcessEnv :=
  if parsed.stored.key.isEmpty then s
  else { s with env := s.env.set parsed.stored.key parsed.stored.value }

/-- The body of `loadFile`'s loop behind its `parseEnvLine`. -/
def assign (overrideLoadedValues : Bool) (s : ProcessEnv) (parsed : EnvEntry) : ProcessEnv :=
  if s.initialKeys.contains parsed.key then s
  else if overrideLoadedValues || (s.read parsed.key).isNone then s.set parsed
  else s

def loadLine (overrideLoadedValues : Bool) (s : ProcessEnv) (line : JsString) : ProcessEnv :=
  match parseEnvLine line with
  | none => s
  | some parsed => s.assign overrideLoadedValues parsed

def loadFile (s : ProcessEnv) (filename : String) (file : EnvFile) (overrideLoadedValues : Bool) :
    Except EnvError ProcessEnv :=
  match file with
  | .absent => .ok s
  | .unreadable => .error (.unreadable filename)
  | .text contents => .ok ((splitLines contents).foldl (loadLine overrideLoadedValues) s)

/-- What a throw leaves behind stays: a later call starts from it. -/
def loadEnv (s : ProcessEnv) (files : EnvFiles) : ProcessEnv × Except EnvError Unit :=
  if s.loaded then (s, .ok ())
  else
    match s.loadFile ".env.example" files.exampleFile false with
    | .error e => (s, .error e)
    | .ok s =>
        match s.loadFile ".env" files.envFile true with
        | .error e => (s, .error e)
        | .ok s => ({ s with loaded := true }, .ok ())

def requiredEnv (s : ProcessEnv) (files : EnvFiles) (name : JsString) :
    ProcessEnv × Except EnvError EnvValue :=
  match s.loadEnv files with
  | (s, .error e) => (s, .error e)
  | (s, .ok ()) =>
      match s.read name with
      | none => (s, .error (.error (Json.units "Missing required environment variable: " ++ name)))
      | some value =>
          if value = .text [] then
            (s, .error (.error (Json.units "Missing required environment variable: " ++ name)))
          else (s, .ok value)

section

variable {ν : Type*} (number : JsString → Option ν)

/-- `number` is `Number` on strings, where that is finite; of what an object inherits it is
`NaN`. -/
def numberEnv (s : ProcessEnv) (files : EnvFiles) (name : JsString) :
    ProcessEnv × Except EnvError ν :=
  match s.requiredEnv files name with
  | (s, .error e) => (s, .error e)
  | (s, .ok raw) =>
      let value :=
        match raw with
        | .text raw => number raw
        | .inherited _ => none
      match value with
      | some value => (s, .ok value)
      | none =>
          (s, .error (.error
            (Json.units "Environment variable " ++ name ++ Json.units " must be a number")))

end

end ProcessEnv

inductive EnvCall where
  | loadEnv
  | requiredEnv (name : JsString)
  | numberEnv (name : JsString)
  deriving DecidableEq

inductive EnvAnswer (ν : Type*) where
  | done
  | value (value : EnvValue)
  | number (value : ν)
  deriving DecidableEq

namespace ProcessEnv

variable {ν : Type*} (number : JsString → Option ν)

/-- One call of another module, with the files as they are at that moment. -/
def call (s : ProcessEnv) (files : EnvFiles) :
    EnvCall → ProcessEnv × Except EnvError (EnvAnswer ν)
  | .loadEnv => (s.loadEnv files).map id fun a => a.map fun _ => .done
  | .requiredEnv name => (s.requiredEnv files name).map id fun a => a.map .value
  | .numberEnv name => (s.numberEnv number files name).map id fun a => a.map .number

/-- The answers to some calls in order. -/
def answers (s : ProcessEnv) : List (EnvFiles × EnvCall) → List (Except EnvError (EnvAnswer ν))
  | [] => []
  | (files, c) :: calls =>
      let (s', answer) := s.call number files c
      answer :: s'.answers calls

end ProcessEnv

end ServeInfer.Config
