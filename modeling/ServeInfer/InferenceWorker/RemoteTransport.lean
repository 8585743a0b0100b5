import ServeInfer.InferenceWorker.JobParsing
import ServeInfer.Lib.Binary64
import ServeInfer.Lib.Text

/-!
# What a worker and its transport child say to each other

The worker writes one line of JSON by hand and reads one line back; the child, on the
other side, has `JSON.parse` and `JSON.stringify`. The worker's strings are bytes.
-/

namespace ServeInfer.InferenceWorker.RemoteTransport

/-- A digit of `%x`. -/
def hexDigit (n : ℕ) : UInt8 := if n < 10 then .ofNat (0x30 + n) else .ofNat (0x57 + n)

/-- A turn of `jsonEscape`'s loop. -/
def escapeByte (ch : UInt8) : Bytes :=
  if ch = 0x5C then [0x5C, 0x5C]
  else if ch = 0x22 then [0x5C, 0x22]
  else if ch = 0x0A then [0x5C, 0x6E]
  else if ch = 0x0D then [0x5C, 0x72]
  else if ch = 0x09 then [0x5C, 0x74]
  else if ch < 0x20 then
    [0x5C, 0x75, 0x30, 0x30, hexDigit (ch.toNat / 0x10), hexDigit (ch.toNat % 0x10)]
  else [ch]

def jsonEscape (input : Bytes) : Bytes := input.flatMap escapeByte

def appendCodePoint (codePoint : ℕ) : Bytes :=
  if codePoint < 0x80 then [.ofNat codePoint]
  else if codePoint < 0x800 then
    [.ofNat (0xC0 + codePoint / 0x40), .ofNat (0x80 + codePoint % 0x40)]
  else if codePoint < 0x10000 then
    [.ofNat (0xE0 + codePoint / 0x1000), .ofNat (0x80 + codePoint / 0x40 % 0x40),
      .ofNat (0x80 + codePoint % 0x40)]
  else
    [.ofNat (0xF0 + codePoint / 0x40000), .ofNat (0x80 + codePoint / 0x1000 % 0x40),
      .ofNat (0x80 + codePoint / 0x40 % 0x40), .ofNat (0x80 + codePoint % 0x40)]

/-- A turn of `readHex4`'s loop. -/
def hexValue (ch : UInt8) : Option ℕ :=
  let n := ch.toNat
  if 0x30 ≤ n ∧ n ≤ 0x39 then some (n - 0x30)
  else if 0x61 ≤ n ∧ n ≤ 0x66 then some (n - 0x61 + 10)
  else if 0x41 ≤ n ∧ n ≤ 0x46 then some (n - 0x41 + 10)
  else none

def readHex4 (a b c d : UInt8) : Option ℕ := do
  return (((← hexValue a) * 16 + (← hexValue b)) * 16 + (← hexValue c)) * 16 + (← hexValue d)

/-- The byte for one behind a backslash, but for `u`. -/
def unescapedByte (b : UInt8) : UInt8 :=
  if b = 0x6E then 0x0A else if b = 0x72 then 0x0D else if b = 0x74 then 0x09
  else if b = 0x62 then 0x08 else if b = 0x66 then 0x0C else b

/-- The code point of a surrogate pair, if the two numbers are one. -/
def rejoin (high low : ℕ) : Option ℕ :=
  if 0xD800 ≤ high ∧ high ≤ 0xDBFF ∧ 0xDC00 ≤ low ∧ low ≤ 0xDFFF then
    some (0x10000 + (high - 0xD800) * 0x400 + (low - 0xDC00))
  else none

/-- The loop of `jsonUnescape`. -/
def jsonUnescape : Bytes → Bytes
  | [] => []
  | [b] => [b]
  | b :: e :: rest =>
      if b ≠ 0x5C then b :: jsonUnescape (e :: rest)
      else if e ≠ 0x75 then unescapedByte e :: jsonUnescape rest
      else
        match rest with
        | h₁ :: h₂ :: h₃ :: h₄ :: rest =>
            match readHex4 h₁ h₂ h₃ h₄ with
            | none => e :: jsonUnescape (h₁ :: h₂ :: h₃ :: h₄ :: rest)
            | some codePoint =>
                match rest with
                | b' :: e' :: l₁ :: l₂ :: l₃ :: l₄ :: rest =>
                    match if b' = 0x5C ∧ e' = 0x75 then
                        (readHex4 l₁ l₂ l₃ l₄).bind (rejoin codePoint) else none with
                    | some pair => appendCodePoint pair ++ jsonUnescape rest
                    | none =>
                        appendCodePoint codePoint ++
                          jsonUnescape (b' :: e' :: l₁ :: l₂ :: l₃ :: l₄ :: rest)
                | rest => appendCodePoint codePoint ++ jsonUnescape rest
        | rest => e :: jsonUnescape rest

/-- `extractString` of the transport. -/
def extractText (json key : Bytes) : Option Bytes :=
  ((stringPattern key).search json).map jsonUnescape

/-- `-?[0-9]+`. -/
def integerRegex : Regex UInt8 :=
  .seq (.alt (byte 0x2D) .empty)
    (.seq (.one fun b => 0x30 ≤ b && b ≤ 0x39) (.star (.one fun b => 0x30 ≤ b && b ≤ 0x39)))

/-- The pattern of `extractLong`. -/
def longPattern (key : Bytes) : Regex.Pattern UInt8 where
  before := keyRegex key
  group := integerRegex

/-- `extractLong`; `strtol` reads up to the string's closing NUL. -/
def extractLong (json key : Bytes) : Option ℤ :=
  ((longPattern key).search json).map fun m =>
    (Text.strtoll (m.map (fun b => Char.ofNat b.toNat) ++ ['\x00'])).getD 0

/-- `buildRemoteRequestJson`. -/
def buildRemoteRequestJson (prompt endpoint : Bytes) : Bytes :=
  bytes "\x7b\"prompt\":\"" ++ jsonEscape prompt ++ bytes "\",\"endpoint\":\"" ++
    jsonEscape endpoint ++ bytes "\"\x7d\n"

/-- `RemoteResponse` in bytes. -/
structure RemoteReading where
  status : ℤ
  text : Bytes
  error : Bytes
  deriving DecidableEq, Repr

/-- A byte that `find_last_not_of` goes past. -/
def isBlank (b : UInt8) : Bool := b = 0x0D || b = 0x0A || b = 0x20 || b = 0x09

/-- The last line that is not blank, with all that follows it. -/
def lastLine (output : Bytes) : Option Bytes :=
  let body := output.reverse.dropWhile isBlank
  if body.isEmpty then none
  else some ((body.takeWhile (· ≠ 0x0A)).reverse ++ (output.reverse.takeWhile isBlank).reverse)

/-- `parseRemoteResponseJson`; `none` leaves `out` untouched. -/
def parseRemoteResponseJson (output : Bytes) : Option RemoteReading := do
  let line ← lastLine output
  let status ← extractLong line (bytes "status")
  return {
    status := status
    text := (extractText line (bytes "text")).getD []
    error := (extractText line (bytes "error")).getD [] }

/-- `reply` of the child; its status is the number nearest to an integer. -/
structure Reply where
  status : ℤ
  text : List Utf8.CodeUnit
  error : List Utf8.CodeUnit
  deriving DecidableEq, Repr

/-- `JSON.stringify` of the reply. -/
def Reply.json (reply : Reply) : List Utf8.CodeUnit :=
  Json.units "\x7b\"status\":" ++
    (Json.units (String.ofList (Text.decimal (Binary64.written reply.status))) ++
      (Json.units ",\"text\":" ++ (Json.quoteJSONString reply.text ++
        (Json.units ",\"error\":" ++ (Json.quoteJSONString reply.error ++ Json.units "\x7d")))))

/-- What `main` writes. -/
def Reply.line (reply : Reply) : Bytes := Utf8.toBytes (reply.json ++ Json.units "\n")

end ServeInfer.InferenceWorker.RemoteTransport
