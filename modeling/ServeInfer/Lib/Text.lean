import Mathlib.Data.Int.Init
import Mathlib.Tactic.IntervalCases
import Mathlib.Tactic.NormNum

/-!
# Scanning text

The C and C++ library calls that read and write numbers and fields in plain
text. A text is the list of its characters; `afterFirst` answers with the text
behind the first match instead of with its position.
-/

namespace Text

/-- The text behind the first occurrence of the needle. -/
def afterFirst (needle : List Char) : List Char → Option (List Char)
  | [] => if needle = [] then some [] else none
  | c :: cs =>
      if needle.isPrefixOf (c :: cs) then some ((c :: cs).drop needle.length)
      else afterFirst needle cs

def contains (text needle : List Char) : Bool := (afterFirst needle text).isSome

/-- The decimal notation of an integer, as `std::to_string` writes it. -/
def decimal (n : ℤ) : List Char :=
  if n < 0 then '-' :: Nat.toDigits 10 n.natAbs else Nat.toDigits 10 n.natAbs

/-- `isspace` in the C locale. -/
def isSpace (c : Char) : Bool :=
  c = ' ' || c = '\t' || c = '\n' || c = '\x0b' || c = '\x0c' || c = '\r'

/-- The optional sign in front of a number, and what follows it. -/
def takeSign : List Char → Bool × List Char
  | '-' :: cs => (true, cs)
  | '+' :: cs => (false, cs)
  | cs => (false, cs)

/-- The value is kept within 64 bits by saturation. -/
def saturate (n : ℤ) : ℤ := max (-2 ^ 63) (min n (2 ^ 63 - 1))

/-- `strtoll` in base ten; `none` when no conversion is performed. -/
def strtoll (text : List Char) : Option ℤ :=
  let signed := takeSign (text.dropWhile isSpace)
  let digits := signed.2.takeWhile Char.isDigit
  if digits = [] then none
  else
    let value : ℤ := Nat.ofDigitChars 10 digits 0
    some (saturate (if signed.1 then -value else value))

/-- The integer that is written at the start of the text, however large. -/
def written (text : List Char) : Option ℤ :=
  let signed := takeSign (text.dropWhile isSpace)
  let digits := signed.2.takeWhile Char.isDigit
  if digits = [] then none
  else
    let value : ℤ := Nat.ofDigitChars 10 digits 0
    some (if signed.1 then -value else value)

/-- What is read is what is written, kept within 64 bits. -/
theorem strtoll_eq (text : List Char) : strtoll text = (written text).map saturate := by
  unfold strtoll written
  dsimp only
  split
  · rfl
  · rfl

variable {needle xs ys : List Char} {c : Char}

/-- A match cannot begin in a part that does not contain the needle's first character. -/
theorem afterFirst_skip (h : c ∉ xs) (ys : List Char) :
    afterFirst (c :: needle) (xs ++ ys) = afterFirst (c :: needle) ys := by
  induction xs with
  | nil => rfl
  | cons x xs ih =>
      have hne : (c == x) = false := by
        simpa using fun hcx : c = x => h (hcx ▸ List.mem_cons_self)
      rw [List.cons_append, afterFirst, List.isPrefixOf, hne, Bool.false_and, if_neg (by simp)]
      exact ih fun hm => h (List.mem_cons_of_mem x hm)

theorem isDigit_of_mem_digits {n : ℕ} (h : c ∈ Nat.toDigits 10 n) : c.isDigit = true :=
  Nat.isDigit_of_mem_toDigits (by norm_num) (by norm_num) h

/-- No digits begin with a zero but zero's own. -/
theorem head_toDigits {n : ℕ} (hn : 0 < n) : (Nat.toDigits 10 n).head? ≠ some '0' := by
  induction n using Nat.strongRecOn with
  | ind n ih =>
      by_cases hlow : n < 10
      · rw [Nat.toDigits_of_lt_base hlow]
        interval_cases n <;> decide
      · have hquotient : 0 < n / 10 := by omega
        have hhead := ih (n / 10) (by omega) hquotient
        rw [Nat.toDigits_of_base_le (by norm_num) (Nat.not_lt.mp hlow)]
        cases hdigits : Nat.toDigits 10 (n / 10) with
        | nil => exact absurd hdigits Nat.toDigits_ne_nil
        | cons d ds => rwa [hdigits] at hhead

theorem isSpace_of_isDigit (h : c.isDigit = true) : isSpace c = false := by
  by_contra hs
  simp only [isSpace, Bool.not_eq_false, Bool.or_eq_true, decide_eq_true_eq] at hs
  rcases hs with ((((rfl | rfl) | rfl) | rfl) | rfl) | rfl <;> cases h

theorem mem_decimal {n : ℤ} (hc : c ∈ decimal n) : c = '-' ∨ c.isDigit = true := by
  unfold decimal at hc
  split at hc
  · rcases List.mem_cons.mp hc with rfl | hc
    · exact .inl rfl
    · exact .inr (isDigit_of_mem_digits hc)
  · exact .inr (isDigit_of_mem_digits hc)

theorem decimal_ascii {n : ℤ} (hc : c ∈ decimal n) : c.toNat < 0x80 := by
  rcases mem_decimal hc with rfl | hc
  · decide
  · have hdigit : 0x30 ≤ c.toNat ∧ c.toNat ≤ 0x39 := Char.isDigit_iff_toNat.mp hc
    omega

theorem notMem_decimal (hc : c.isDigit = false) (hm : c ≠ '-') (n : ℤ) : c ∉ decimal n := by
  intro h
  rcases mem_decimal h with heq | hdigit
  · exact hm heq
  · rw [hdigit] at hc
    cases hc

theorem takeWhile_digits {n : ℕ} (hc : c.isDigit = false) (rest : List Char) :
    (Nat.toDigits 10 n ++ c :: rest).takeWhile Char.isDigit = Nat.toDigits 10 n := by
  rw [List.takeWhile_append_of_pos fun _ => isDigit_of_mem_digits,
    List.takeWhile_cons_of_neg (by simp [hc]), List.append_nil]

/-- No sign and no space stands in front of a number's digits. -/
theorem takeSign_digits (n : ℕ) (rest : List Char) :
    takeSign ((Nat.toDigits 10 n ++ rest).dropWhile isSpace) =
      (false, Nat.toDigits 10 n ++ rest) := by
  cases hd : Nat.toDigits 10 n with
  | nil => exact absurd hd Nat.toDigits_ne_nil
  | cons d ds =>
      have hdigit : d.isDigit = true := isDigit_of_mem_digits (hd ▸ List.mem_cons_self)
      have hspace : isSpace d = false := isSpace_of_isDigit hdigit
      have hminus : d ≠ '-' := fun h => by subst h; cases hdigit
      have hplus : d ≠ '+' := fun h => by subst h; cases hdigit
      rw [List.cons_append, List.dropWhile_cons_of_neg (by simp [hspace]), takeSign]
      · exact fun _ h => hminus (List.cons.inj h).1
      · exact fun _ h => hplus (List.cons.inj h).1

/-- A number that was written in front of a character that is no digit is read as far as it fits. -/
theorem strtoll_decimal_saturate (hc : c.isDigit = false) (n : ℤ) (rest : List Char) :
    strtoll (decimal n ++ c :: rest) = some (saturate n) := by
  have hvalue : (Nat.ofDigitChars 10 (Nat.toDigits 10 n.natAbs) 0 : ℤ) = n.natAbs := by
    rw [Nat.ofDigitChars_ten_toDigits]
  unfold strtoll decimal
  split
  · rename_i hneg
    have hsign : takeSign
        ((('-' :: Nat.toDigits 10 n.natAbs) ++ c :: rest).dropWhile isSpace) =
          (true, Nat.toDigits 10 n.natAbs ++ c :: rest) := rfl
    rw [hsign]
    simp only [takeWhile_digits hc, Nat.toDigits_ne_nil, if_false, hvalue, if_true]
    have habs : -(n.natAbs : ℤ) = n := by omega
    rw [habs]
  · rename_i hpos
    rw [takeSign_digits]
    simp only [takeWhile_digits hc, Nat.toDigits_ne_nil, if_false, hvalue, Bool.false_eq_true]
    have habs : (n.natAbs : ℤ) = n := by omega
    rw [habs]

theorem saturate_eq {n : ℤ} (hlo : -2 ^ 63 ≤ n) (hhi : n < 2 ^ 63) : saturate n = n := by
  unfold saturate
  omega

/-- Reading back a number that was written in front of a character that is no digit. -/
theorem strtoll_decimal {n : ℤ} (hlo : -2 ^ 63 ≤ n) (hhi : n < 2 ^ 63) (hc : c.isDigit = false)
    (rest : List Char) : strtoll (decimal n ++ c :: rest) = some n := by
  rw [strtoll_decimal_saturate hc, saturate_eq hlo hhi]

end Text
