import ServeInfer.Lib.Utf8

/-!
# JSON texts

`JSON.parse` on UTF-16 code units, and what JavaScript makes of the values. A
value keeps its members in the order of the text, where the last of two equal
keys counts, and a number as it is written.
-/

open Utf8 (CodeUnit)

inductive Json
  | null
  | bool (b : Bool)
  | num (literal : List CodeUnit)
  | str (s : List CodeUnit)
  | arr (items : List Json)
  | obj (members : List (List CodeUnit × Json))

namespace Json

/-- A text of the basic plane in code units. -/
def units (s : String) : List CodeUnit := s.toList.map fun c => .ofNat c.toNat

def quote : CodeUnit := 0x22

def backslash : CodeUnit := 0x5C

def isSpace (u : CodeUnit) : Bool := u = 0x20 || u = 0x09 || u = 0x0A || u = 0x0D

def skipSpace (s : List CodeUnit) : List CodeUnit := s.dropWhile isSpace

def isDigit (u : CodeUnit) : Bool := 0x30 ≤ u && u ≤ 0x39

/-- What stands for one unit behind a backslash. -/
def escaped (u : CodeUnit) : Option CodeUnit :=
  if u = quote ∨ u = backslash ∨ u = 0x2F then some u
  else if u = 0x62 then some 0x08
  else if u = 0x66 then some 0x0C
  else if u = 0x6E then some 0x0A
  else if u = 0x72 then some 0x0D
  else if u = 0x74 then some 0x09
  else none

def hexDigit (u : CodeUnit) : Option ℕ :=
  let n := u.toNat
  if 0x30 ≤ n ∧ n ≤ 0x39 then some (n - 0x30)
  else if 0x61 ≤ n ∧ n ≤ 0x66 then some (n - 0x61 + 10)
  else if 0x41 ≤ n ∧ n ≤ 0x46 then some (n - 0x41 + 10)
  else none

def hex4 (a b c d : CodeUnit) : Option CodeUnit := do
  return .ofNat ((((← hexDigit a) * 16 + (← hexDigit b)) * 16 + (← hexDigit c)) * 16 + (← hexDigit d))

/-- The rest of a string whose opening quote has been read, and what follows it. -/
def parseString : List CodeUnit → Option (List CodeUnit × List CodeUnit)
  | [] => none
  | u :: rest =>
      if u = quote then some ([], rest)
      else if u = backslash then
        match rest with
        | [] => none
        | e :: rest =>
            match escaped e with
            | some c => (parseString rest).map fun (s, rest) => (c :: s, rest)
            | none =>
                match rest with
                | a :: b :: c :: d :: rest =>
                    if e = 0x75 then
                      (hex4 a b c d).bind fun v =>
                        (parseString rest).map fun (s, rest) => (v :: s, rest)
                    else none
                | _ => none
      else if u < 0x20 then none
      else (parseString rest).map fun (s, rest) => (u :: s, rest)

/-- At least one digit. -/
def parseDigits (s : List CodeUnit) : Option (List CodeUnit × List CodeUnit) :=
  let (digits, rest) := s.span isDigit
  if digits.isEmpty then none else some (digits, rest)

def parseInt (s : List CodeUnit) : Option (List CodeUnit × List CodeUnit) :=
  match s with
  | 0x30 :: rest => some ([0x30], rest)
  | _ => parseDigits s

def parseFraction (s : List CodeUnit) : Option (List CodeUnit × List CodeUnit) :=
  match s with
  | 0x2E :: rest => (parseDigits rest).map fun (digits, rest) => (0x2E :: digits, rest)
  | _ => some ([], s)

def parseExponent (s : List CodeUnit) : Option (List CodeUnit × List CodeUnit) :=
  match s with
  | e :: rest =>
      if e = 0x65 ∨ e = 0x45 then
        match rest with
        | sign :: rest' =>
            if sign = 0x2B ∨ sign = 0x2D then
              (parseDigits rest').map fun (digits, rest) => (e :: sign :: digits, rest)
            else (parseDigits rest).map fun (digits, rest) => (e :: digits, rest)
        | [] => none
      else some ([], s)
  | [] => some ([], s)

def parseSign (s : List CodeUnit) : List CodeUnit × List CodeUnit :=
  match s with
  | 0x2D :: rest => ([0x2D], rest)
  | _ => ([], s)

def parseNumber (s : List CodeUnit) : Option (Json × List CodeUnit) := do
  let (sign, s) := parseSign s
  let (int, s) ← parseInt s
  let (fraction, s) ← parseFraction s
  let (exponent, s) ← parseExponent s
  return (.num (sign ++ int ++ fraction ++ exponent), s)

/-- The text goes on with the word. -/
def parseWord (word : String) (value : Json) (s : List CodeUnit) : Option (Json × List CodeUnit) :=
  if (units word).isPrefixOf s then some (value, s.drop (units word).length) else none

mutual

/-- A value. Every call reads at least one unit, so the length of the text is fuel enough. -/
def parseValue : ℕ → List CodeUnit → Option (Json × List CodeUnit)
  | 0, _ => none
  | fuel + 1, s =>
      match skipSpace s with
      | [] => none
      | u :: rest =>
          if u = quote then (parseString rest).map fun (s, rest) => (.str s, rest)
          else if u = 0x7B then
            match skipSpace rest with
            | 0x7D :: rest => some (.obj [], rest)
            | s => (parseMembers fuel s).map fun (members, rest) => (.obj members, rest)
          else if u = 0x5B then
            match skipSpace rest with
            | 0x5D :: rest => some (.arr [], rest)
            | s => (parseItems fuel s).map fun (items, rest) => (.arr items, rest)
          else if u = 0x74 then parseWord "true" (.bool true) (u :: rest)
          else if u = 0x66 then parseWord "false" (.bool false) (u :: rest)
          else if u = 0x6E then parseWord "null" .null (u :: rest)
          else parseNumber (u :: rest)

/-- The members of an object from a key on, and its closing brace. -/
def parseMembers : ℕ → List CodeUnit → Option (List (List CodeUnit × Json) × List CodeUnit)
  | 0, _ => none
  | fuel + 1, s =>
      match skipSpace s with
      | 0x22 :: rest =>
          (parseString rest).bind fun (key, rest) =>
            match skipSpace rest with
            | 0x3A :: rest =>
                (parseValue fuel rest).bind fun (value, rest) =>
                  match skipSpace rest with
                  | 0x2C :: rest =>
                      (parseMembers fuel rest).map fun (members, rest) =>
                        ((key, value) :: members, rest)
                  | 0x7D :: rest => some ([(key, value)], rest)
                  | _ => none
            | _ => none
      | _ => none

/-- The items of an array from a value on, and its closing bracket. -/
def parseItems : ℕ → List CodeUnit → Option (List Json × List CodeUnit)
  | 0, _ => none
  | fuel + 1, s =>
      (parseValue fuel s).bind fun (value, rest) =>
        match skipSpace rest with
        | 0x2C :: rest => (parseItems fuel rest).map fun (items, rest) => (value :: items, rest)
        | 0x5D :: rest => some ([value], rest)
        | _ => none

end

/-- `JSON.parse`. -/
def parse (s : List CodeUnit) : Option Json :=
  match parseValue (s.length + 1) s with
  | some (value, rest) => if (skipSpace rest).isEmpty then some value else none
  | none => none

/-- A property by its name; only objects of a text have any. -/
def get? (v : Json) (key : String) : Option Json :=
  match v with
  | .obj members => (members.reverse.find? fun m => m.1 = units key).map Prod.snd
  | _ => none

section Conversions

variable (numberText : List CodeUnit → List CodeUnit)

mutual

/-- The text of an item in `join`, where null leaves none. -/
def itemText : Json → List CodeUnit
  | .null => []
  | .bool b => units (if b then "true" else "false")
  | .num literal => numberText literal
  | .str s => s
  | .arr items => joined items
  | .obj _ => units "[object Object]"

/-- `items.join(',')`. -/
def joined : List Json → List CodeUnit
  | [] => []
  | [item] => itemText item
  | item :: items => itemText item ++ 0x2C :: joined items

end

/-- `String(v)` of a value that has a text, given the texts of numbers. -/
def toText : Json → List CodeUnit
  | .null => units "null"
  | v => itemText numberText v

mutual

/-- No object that `String(v)` comes to has a `toString` of its own, which would be no function. -/
def hasText : Json → Bool
  | .arr items => haveText items
  | .obj members => members.all fun m => m.1 ≠ units "toString"
  | _ => true

def haveText : List Json → Bool
  | [] => true
  | item :: items => hasText item && haveText items

end

/-- `String(v)`, where `none` is the `TypeError` of a value without a text. -/
def toText? (v : Json) : Option (List CodeUnit) :=
  if v.hasText then some (v.toText numberText) else none

/-- `Boolean(v)`; the falsy numbers are those written 0. -/
def truthy : Json → Bool
  | .null => false
  | .bool b => b
  | .num literal => numberText literal ≠ units "0"
  | .str s => !s.isEmpty
  | .arr _ => true
  | .obj _ => true

end Conversions

/-- White space and line ends, as `trim` knows them. -/
def isWhite (u : CodeUnit) : Bool :=
  u ∈ ([0x09, 0x0A, 0x0B, 0x0C, 0x0D, 0x20, 0xA0, 0x1680, 0x2028, 0x2029, 0x202F, 0x205F, 0x3000,
    0xFEFF] : List CodeUnit) || (0x2000 ≤ u && u ≤ 0x200A)

def trimStart (s : List CodeUnit) : List CodeUnit := s.dropWhile isWhite

def trimEnd (s : List CodeUnit) : List CodeUnit := (s.reverse.dropWhile isWhite).reverse

/-- `s.trim()`. -/
def trim (s : List CodeUnit) : List CodeUnit :=
  ((s.dropWhile isWhite).reverse.dropWhile isWhite).reverse

end Json
