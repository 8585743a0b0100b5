import ServeInfer.Hardware.CapacityPlan
import ServeInfer.Lib.FieldSearch
import ServeInfer.Lib.Text

/-!
# The hardware report as text

What the probing child writes into its pipe and what the supervisor reads out of it.
A `std::string` is the list of its characters. The reader searches for its keys, and
takes strings as they stand between their quotes.
-/

namespace ServeInfer.Hardware

/-- A turn of `jsonEscape`'s loop. -/
def escape (ch : Char) : List Char :=
  if ch = '\\' then ['\\', '\\']
  else if ch = '"' then ['\\', '"']
  else if ch = '\n' then ['\\', 'n']
  else if ch = '\r' then ['\\', 'r']
  else if ch = '\t' then ['\\', 't']
  else [ch]

def jsonEscape (input : String) : List Char := input.toList.flatMap escape

/-- `std::to_string` of a `std::size_t`. -/
def sizeText (n : UInt64) : List Char := Nat.toDigits 10 n.toNat

def boolText (flag : Bool) : List Char := if flag then "true".toList else "false".toList

/-- A turn of `hardwareReportToJson`'s loop, its comma apart. -/
def gpuToJson (gpu : GpuDevice) : List Char :=
  "\x7b\"name\":\"".toList ++ jsonEscape gpu.name ++ "\",\"description\":\"".toList ++
    jsonEscape gpu.description ++ "\",\"freeBytes\":".toList ++ sizeText gpu.freeBytes ++
    ",\"totalBytes\":".toList ++ sizeText gpu.totalBytes ++ "\x7d".toList

def hardwareReportToJson (report : HardwareReport) : List Char :=
  "\x7b\"probeOk\":".toList ++ boolText report.probeOk ++ ",\"note\":\"".toList ++
    jsonEscape report.note ++ "\",\"ramTotalBytes\":".toList ++ sizeText report.ram.totalBytes ++
    ",\"ramAvailableBytes\":".toList ++ sizeText report.ram.availableBytes ++
    ",\"gpus\":[".toList ++ [','].intercalate (report.gpus.map gpuToJson) ++ "]\x7d".toList

/-- The marks of a text of characters. -/
def marks : Marks Char where
  quote := '"'
  backslash := '\\'
  comma := ','
  colon := ':'
  isSpace := Text.isSpace
  isBreak c := c = '\n' || c = '\r'
  distinct := by decide
  unspaced := by decide

/-- `extractString`: the group as it was matched. -/
def extractString (json key : List Char) : Option String :=
  ((marks.stringPattern key).search json).map String.ofList

/-- `[0-9]+`. -/
def digits : Regex Char := .seq (.one Char.isDigit) (.star (.one Char.isDigit))

/-- `std::stoull` of digits, which throws where the number does not fit. -/
def stoull (text : List Char) : Option UInt64 :=
  if Nat.ofDigitChars 10 text 0 < 2 ^ 64 then some (.ofNat (Nat.ofDigitChars 10 text 0)) else none

def extractUnsigned (json key : List Char) : Option UInt64 :=
  ((marks.valuePattern key digits).search json).bind stoull

/-- `true|false`. -/
def truth : Regex Char := .alt (.literal "true".toList) (.literal "false".toList)

def extractBool (json key : List Char) : Option Bool :=
  ((marks.valuePattern key truth).search json).map fun m => m = "true".toList

/-- The loop of `splitObjects`; `object` is the text since `start`. -/
def splitFrom (depth : ℤ) (inString : Bool) (object : List Char) : List Char → List (List Char)
  | [] => []
  | ch :: rest =>
      if inString then
        if ch = '\\' then
          match rest with
          | [] => []
          | next :: rest => splitFrom depth true (object ++ [ch, next]) rest
        else splitFrom depth (ch ≠ '"') (object ++ [ch]) rest
      else if ch = '"' then splitFrom depth true (object ++ [ch]) rest
      else if ch = '{' then
        splitFrom (depth + 1) false (if depth = 0 then [ch] else object ++ [ch]) rest
      else if ch = '}' then
        if depth - 1 = 0 then
          (object ++ [ch]) :: splitFrom (depth - 1) false (object ++ [ch]) rest
        else splitFrom (depth - 1) false (object ++ [ch]) rest
      else splitFrom depth false (object ++ [ch]) rest

def splitObjects (array : List Char) : List (List Char) := splitFrom 0 false [] array

/-- The loop of `sliceGpuArray`: the text up to the bracket that closes the first one. -/
def arrayFrom (depth : ℤ) (inString : Bool) : List Char → Option (List Char)
  | [] => none
  | ch :: rest =>
      if inString then
        if ch = '\\' then
          match rest with
          | [] => none
          | next :: rest => (arrayFrom depth true rest).map ([ch, next] ++ ·)
        else (arrayFrom depth (ch ≠ '"') rest).map ([ch] ++ ·)
      else if ch = '"' then (arrayFrom depth true rest).map ([ch] ++ ·)
      else if ch = '[' then (arrayFrom (depth + 1) false rest).map ([ch] ++ ·)
      else if ch = ']' then
        if depth - 1 = 0 then some [ch] else (arrayFrom (depth - 1) false rest).map ([ch] ++ ·)
      else (arrayFrom depth false rest).map ([ch] ++ ·)

/-- `find`: the text from the first occurrence of the needle on. -/
def fromFirst (needle : List Char) : List Char → Option (List Char)
  | [] => if needle = [] then some [] else none
  | c :: cs =>
      if needle.isPrefixOf (c :: cs) then some (c :: cs) else fromFirst needle cs

def sliceGpuArray (json : List Char) : Option (List Char) := do
  let fromKey ← fromFirst "\"gpus\"".toList json
  let array ← fromFirst ['['] fromKey
  arrayFrom 0 false array

/-- The body of `parseHardwareReport`'s loop. -/
def parseGpu (object : List Char) : Option GpuDevice := do
  let freeBytes ← extractUnsigned object "freeBytes".toList
  let totalBytes ← extractUnsigned object "totalBytes".toList
  some
    { name := (extractString object "name".toList).getD ""
      description := (extractString object "description".toList).getD ""
      freeBytes := freeBytes
      totalBytes := totalBytes }

/-- `parseHardwareReport`; `none` leaves `out` untouched. -/
def parseHardwareReport (json : List Char) : Option HardwareReport := do
  let probeOk ← extractBool json "probeOk".toList
  let gpuArray ← sliceGpuArray json
  let gpus ← (splitObjects gpuArray).mapM parseGpu
  some
    { gpus := gpus
      ram :=
        { totalBytes := (extractUnsigned json "ramTotalBytes".toList).getD 0
          availableBytes := (extractUnsigned json "ramAvailableBytes".toList).getD 0 }
      note := (extractString json "note".toList).getD ""
      probeOk := probeOk }

end ServeInfer.Hardware
