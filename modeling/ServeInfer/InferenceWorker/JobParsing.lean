import ServeInfer.InferenceWorker.Frames
import ServeInfer.Lib.FieldSearch
import ServeInfer.Lib.JsonQuote

/-!
# How a worker reads its job

The extractors search the whole line for the first match of a quoted key. In a line
whose strings only have quotes behind backslashes, and whose strings are followed by
commas, a key can only be found where it is a key.
-/

namespace ServeInfer.InferenceWorker

open Json (Inside)

/-- `\s` in a `std::regex` over bytes. -/
def isSpace (b : UInt8) : Bool := b = 0x20 || 0x09 ≤ b && b ≤ 0x0D

def spaces : Regex UInt8 := .star (.one isSpace)

def byte (b : UInt8) : Regex UInt8 := .one fun c => c = b

/-- `"key"\s*:\s*`. -/
def keyRegex (key : Bytes) : Regex UInt8 :=
  .seq (.literal (0x22 :: key ++ [0x22])) (.seq spaces (.seq (byte 0x3A) spaces))

/-- `\\.|[^"\\]`. -/
def stringUnit : Regex UInt8 :=
  .alt (.seq (byte 0x5C) (.one fun b => b ≠ 0x0A && b ≠ 0x0D))
    (.one fun b => b ≠ 0x22 && b ≠ 0x5C)

/-- The pattern of `extractString`. -/
def stringPattern (key : Bytes) : Regex.Pattern UInt8 where
  before := .seq (keyRegex key) (byte 0x22)
  group := .star stringUnit
  after := byte 0x22

/-- The pattern of `extractBool`. -/
def boolPattern (key : Bytes) : Regex.Pattern UInt8 where
  before := keyRegex key
  group := .alt (.literal (bytes "true")) (.literal (bytes "false"))

/-- The byte for one behind a backslash. -/
def unescaped (b : UInt8) : UInt8 :=
  if b = 0x6E then 0x0A else if b = 0x72 then 0x0D else if b = 0x74 then 0x09 else b

/-- The loop of `extractString`. -/
def unescape : Bytes → Bytes
  | [] => []
  | [b] => [b]
  | b :: c :: rest =>
      if b = 0x5C then unescaped c :: unescape rest else b :: unescape (c :: rest)

def extractString (json key : Bytes) : Option Bytes :=
  ((stringPattern key).search json).map unescape

def extractBool (json key : Bytes) (defaultValue : Bool) : Bool :=
  match (boolPattern key).search json with
  | none => defaultValue
  | some m => m = bytes "true"

/-- The `std::string` of some bytes. -/
def ofBytes (x : Bytes) : String := String.ofList (x.map fun b => Char.ofNat b.toNat)

/-- `Worker::parseJob`: what it makes of `out`, and its error. -/
def parseJob (raw : Bytes) (out : InferenceJob) : InferenceJob × Option String :=
  if extractString raw (bytes "type") ≠ some (bytes "infer") then
    (out, some "expected type=infer")
  else
    match extractString raw (bytes "requestId") with
    | none => (out, some "missing requestId")
    | some requestId =>
        let out := { out with requestId := ofBytes requestId }
        match extractString raw (bytes "prompt") with
        | none => (out, some "missing prompt")
        | some prompt =>
            ({ out with
              prompt := ofBytes prompt
              stream := extractBool raw (bytes "stream") false }, none)

/-- What a `read` of the client's socket returns. -/
inductive ReadResult
  | data (chunk : Bytes)
  | interrupted
  | failed
  | eof
  deriving DecidableEq, Repr

/-- How far `handleClient` has come with its reading: the next `read` blocks, one has failed, or the
loop is left with a payload. -/
inductive Reading
  | waiting (payload : Bytes)
  | failed
  | complete (payload : Bytes)
  deriving DecidableEq, Repr

/-- The payload that ends the loop without a newline. -/
def maxPayload : ℕ := 1024 * 1024

/-- The read loop of `handleClient`. -/
def readLoop (payload : Bytes) : List ReadResult → Reading
  | [] => .waiting payload
  | .interrupted :: reads => readLoop payload reads
  | .failed :: _ => .failed
  | .eof :: _ => .complete payload
  | .data chunk :: reads =>
      if 0x0A ∈ payload ++ chunk ∨ (payload ++ chunk).length > maxPayload then
        .complete (payload ++ chunk)
      else readLoop (payload ++ chunk) reads

/-- The payload up to its first newline. -/
def lineOf (payload : Bytes) : Bytes := payload.takeWhile (· ≠ 0x0A)

/-- What becomes of a connection: it is still read, closed without an answer, answered with an
error, or its job is executed. -/
inductive Handled
  | waiting
  | dropped
  | refused (requestId error : String)
  | executed (job : InferenceJob)
  deriving DecidableEq, Repr

/-- `Worker::handleClient`, of a worker past `init`, up to the execution. -/
def handleClient (reads : List ReadResult) : Handled :=
  match readLoop [] reads with
  | .waiting _ => .waiting
  | .failed => .dropped
  | .complete payload =>
      match parseJob (lineOf payload) ⟨"", "", false⟩ with
      | (job, none) => .executed job
      | (job, some error) => .refused job.requestId error

/-- The frames that go back to the client, and the worker after it. -/
def Handled.reply (env : Device.RouterEnv) (w : Worker) : Handled → List (Frame Bytes) × Worker
  | .waiting => ([], w)
  | .dropped => ([], w)
  | .refused requestId error => ([.error (bytes requestId) (bytes error)], w)
  | .executed job => w.answer env job

theorem unescape_append {x : Bytes} (hx : Inside x) (y : Bytes) :
    unescape (x ++ y) = unescape x ++ unescape y := by
  induction hx with
  | nil => rfl
  | @plain b x _ hbackslash _ ih =>
      have hcons : ∀ z, unescape (b :: z) = b :: unescape z := by
        intro z
        cases z with
        | nil => rfl
        | cons c z => rw [unescape, if_neg hbackslash]
      rw [List.cons_append, hcons, ih, hcons, List.cons_append]
  | @escaped b x _ _ _ ih =>
      rw [List.cons_append, List.cons_append, unescape, if_pos rfl, ih, unescape, if_pos rfl,
        List.cons_append]

theorem unescape_flatMap {α : Type} {f : α → Bytes} {l : List α} (h : ∀ a ∈ l, Inside (f a)) :
    unescape (l.flatMap f) = l.flatMap fun a => unescape (f a) := by
  induction l with
  | nil => rfl
  | cons a l ih =>
      rw [List.flatMap_cons, unescape_append (h a List.mem_cons_self),
        ih fun b hb => h b (List.mem_cons_of_mem a hb), List.flatMap_cons]

/-- A key that nothing but a key looks like. -/
def IsKey (key : Bytes) : Prop :=
  key ≠ [] ∧ ∀ b ∈ key, b ≠ 0x22 ∧ b ≠ 0x5C ∧ b ≠ 0x2C ∧ b ≠ 0x3A

instance (key : Bytes) : Decidable (IsKey key) := inferInstanceAs (Decidable (_ ∧ _))

/-- The marks of a line of bytes. -/
def marks : Marks UInt8 where
  quote := 0x22
  backslash := 0x5C
  comma := 0x2C
  colon := 0x3A
  isSpace := isSpace
  isBreak b := b = 0x0A || b = 0x0D
  distinct := by decide
  unspaced := by decide

variable {key name x y : Bytes} {b : UInt8}

theorem inside_marks (hx : Inside x) : marks.Inside x := by
  induction hx with
  | nil => exact .nil
  | plain hquote hbackslash _ ih => exact .plain hquote hbackslash ih
  | escaped hbreak hreturn _ ih =>
      refine .escaped ?_ ih
      simp [marks, hbreak, hreturn]

theorem IsKey.marks (h : IsKey key) : marks.IsKey key := by
  refine ⟨h.1, fun b hb => ?_⟩
  obtain ⟨hquote, hbackslash, hcomma, hcolon⟩ := h.2 b hb
  simp [InferenceWorker.marks, hquote, hbackslash, hcomma, hcolon]

theorem stringPattern_eq (key : Bytes) : stringPattern key = marks.stringPattern key := by
  have hunit : stringUnit = marks.stringUnit := by
    have hbreak : (fun b : UInt8 => b ≠ 0x0A && b ≠ 0x0D) = fun b => !marks.isBreak b := by
      funext b
      simp [marks]
    rw [stringUnit, Marks.stringUnit, ← hbreak]
    rfl
  rw [stringPattern, Marks.stringPattern, hunit]
  rfl

section Search

variable {p : Regex.Pattern UInt8}
  (hp : ∀ s, (keyRegex key).runs s = [] → p.captures s = []) (hkey : IsKey key)

include hp

/-- A byte that is no quote begins no key. -/
theorem search_other (hb : b ≠ 0x22) (y : Bytes) : p.search (b :: y) = p.search y :=
  Marks.search_other (M := marks) hp hb y

include hkey

/-- A member under another key is skipped whole. -/
theorem search_member (hname : IsKey name) (hne : name ≠ key) (hx : Inside x) (y : Bytes) :
    p.search (0x22 :: (name ++ 0x22 :: 0x3A :: 0x22 :: (x ++ 0x22 :: 0x2C :: y))) =
      p.search y := by
  have hvalue : p.search (0x22 :: (x ++ 0x22 :: 0x2C :: y)) = p.search y :=
    Marks.search_string (M := marks) hp hkey.marks (inside_marks hx) y
  rw [← hvalue]
  exact Marks.search_name (M := marks) hp hkey.marks hname.marks hne _

end Search

theorem captures_stringPattern (s : Bytes) (h : (keyRegex key).runs s = []) :
    (stringPattern key).captures s = [] := by
  rw [stringPattern_eq]
  exact Marks.captures_stringPattern (M := marks) s h

theorem captures_boolPattern (s : Bytes) (h : (keyRegex key).runs s = []) :
    (boolPattern key).captures s = [] :=
  Marks.captures_valuePattern (M := marks) s h

/-- Where the key is, its string is what is found. -/
theorem search_stringPattern (hx : Inside x) (y : Bytes) :
    (stringPattern key).search (0x22 :: (key ++ 0x22 :: 0x3A :: 0x22 :: (x ++ 0x22 :: y))) =
      some x := by
  rw [stringPattern_eq]
  exact Marks.search_stringPattern (M := marks) (inside_marks hx) y

def flagText (flag : Bool) : Bytes := if flag then bytes "true" else bytes "false"

/-- Either truth value is matched in one way. -/
theorem runs_flagText (flag : Bool) (y : Bytes) :
    (Regex.alt (.literal (bytes "true")) (.literal (bytes "false"))).runs (flagText flag ++ y) =
      [(flagText flag, y)] := by
  cases flag with
  | true =>
      have hnot : ¬ bytes "false" <+: bytes "true" ++ y := by
        intro h
        exact absurd (List.cons_prefix_cons.mp h).1 (by decide)
      rw [Regex.runs, flagText, if_pos rfl, Regex.runs_literal_append,
        Regex.runs_literal_of_not hnot, List.append_nil]
  | false =>
      have hnot : ¬ bytes "true" <+: bytes "false" ++ y := by
        intro h
        exact absurd (List.cons_prefix_cons.mp h).1 (by decide)
      rw [Regex.runs, flagText, if_neg Bool.false_ne_true, Regex.runs_literal_append,
        Regex.runs_literal_of_not hnot, List.nil_append]

/-- Where the key is, its truth value is what is found. -/
theorem search_boolPattern (flag : Bool) (y : Bytes) :
    (boolPattern key).search (0x22 :: (key ++ 0x22 :: 0x3A :: (flagText flag ++ y))) =
      some (flagText flag) := by
  have hruns := congrArg List.head? (runs_flagText flag y)
  cases flag with
  | true => exact Marks.search_valuePattern (M := marks) (a := 0x74) rfl hruns
  | false => exact Marks.search_valuePattern (M := marks) (a := 0x66) rfl hruns

end ServeInfer.InferenceWorker
