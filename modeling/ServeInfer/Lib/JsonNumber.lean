import Mathlib.Data.List.TakeWhile
import ServeInfer.Lib.Binary64
import ServeInfer.Lib.JsonStringify
import ServeInfer.Lib.Text

/-!
# The numbers of a JSON text

What `JSON.parse` makes of a literal: the number nearest to its value.
-/

open Utf8 (CodeUnit)

namespace Json

def digitsValue (digits : List CodeUnit) : ℕ :=
  digits.foldl (fun n u => 10 * n + (u.toNat - 0x30)) 0

def exponentValue : List CodeUnit → ℤ
  | _ :: 0x2D :: digits => -digitsValue digits
  | _ :: 0x2B :: digits => digitsValue digits
  | _ :: digits => digitsValue digits
  | [] => 0

def fractionSplit (s : List CodeUnit) : List CodeUnit × List CodeUnit :=
  match s with
  | 0x2E :: rest => rest.span isDigit
  | _ => ([], s)

/-- The exact value of a literal. -/
def literalValue (literal : List CodeUnit) : ℚ :=
  let (sign, s) := parseSign literal
  let (int, s) := s.span isDigit
  let (fraction, s) := fractionSplit s
  let magnitude : ℚ :=
    (digitsValue int + digitsValue fraction / 10 ^ fraction.length) * 10 ^ exponentValue s
  if sign.isEmpty then magnitude else -magnitude

/-- The number that a literal stands for; `none` is an infinity. -/
def numberValue (literal : List CodeUnit) : Option ℚ := Binary64.ofRat (literalValue literal)

/-- An integer as it is written without an exponent. -/
def decimalUnits (n : ℤ) : List CodeUnit := (Text.decimal n).map fun c => .ofNat c.toNat

section Decimal

variable {n : ℤ} {k : ℕ}

/-- The digits of a natural number in units. -/
def digitUnits (k : ℕ) : List CodeUnit := (Nat.toDigits 10 k).map fun c => .ofNat c.toNat

theorem toNat_ofNat_digit {c : Char} (hc : c.isDigit = true) :
    (UInt16.ofNat c.toNat).toNat = c.toNat ∧ 0x30 ≤ c.toNat ∧ c.toNat ≤ 0x39 := by
  have hdigit : 0x30 ≤ c.toNat ∧ c.toNat ≤ 0x39 := Char.isDigit_iff_toNat.mp hc
  refine ⟨?_, hdigit⟩
  rw [UInt16.toNat_ofNat']
  omega

theorem isDigit_digitUnits : ∀ u ∈ digitUnits k, isDigit u = true := by
  intro u hu
  obtain ⟨c, hc, rfl⟩ := List.mem_map.mp hu
  obtain ⟨hnat, hlow, hhigh⟩ := toNat_ofNat_digit (Text.isDigit_of_mem_digits hc)
  rw [isDigit, Bool.and_eq_true, decide_eq_true_eq, decide_eq_true_eq, UInt16.le_iff_toNat_le,
    UInt16.le_iff_toNat_le, hnat]
  exact ⟨hlow, hhigh⟩

theorem isInt_digitUnits (k : ℕ) : IsInt (digitUnits k) := by
  by_cases hk : k = 0
  · subst hk
    exact .inl rfl
  · have hhead := Text.head_toDigits (Nat.pos_of_ne_zero hk)
    refine .inr ⟨⟨by simp [digitUnits], isDigit_digitUnits⟩, ?_⟩
    cases hdigits : Nat.toDigits 10 k with
    | nil => exact absurd hdigits Nat.toDigits_ne_nil
    | cons c cs =>
        rw [hdigits] at hhead
        have hdigit : c.isDigit := Text.isDigit_of_mem_digits (hdigits ▸ List.mem_cons_self)
        obtain ⟨hnat, -⟩ := toNat_ofNat_digit hdigit
        rw [digitUnits, hdigits]
        intro heq
        have hunit : (UInt16.ofNat c.toNat).toNat = 0x30 :=
          congrArg UInt16.toNat (Option.some.inj heq)
        rw [hnat] at hunit
        exact hhead (congrArg some (Char.toNat_inj.mp hunit))

def signUnits (n : ℤ) : List CodeUnit := if n < 0 then [0x2D] else []

theorem decimalUnits_eq (n : ℤ) : decimalUnits n = signUnits n ++ digitUnits n.natAbs := by
  unfold decimalUnits Text.decimal signUnits digitUnits
  split <;> rfl

/-- A written integer is a number. -/
theorem isNumber_decimalUnits (n : ℤ) : IsNumber (decimalUnits n) := by
  have hsign : signUnits n = [] ∨ signUnits n = [0x2D] := by
    unfold signUnits
    split
    · exact .inr rfl
    · exact .inl rfl
  refine ⟨_, _, [], [], hsign, isInt_digitUnits n.natAbs, .inl rfl, .inl rfl, ?_⟩
  rw [decimalUnits_eq, List.append_nil, List.append_nil]

theorem parseSign_decimalUnits (n : ℤ) :
    parseSign (decimalUnits n) = (signUnits n, digitUnits n.natAbs) := by
  rw [decimalUnits_eq, signUnits]
  split
  · rfl
  · rw [List.nil_append, parseSign.eq_def]
    split
    · rename_i rest heq
      have hminus : (0x2D : CodeUnit) ∈ digitUnits n.natAbs := heq ▸ List.mem_cons_self
      exact absurd (isDigit_digitUnits _ hminus) (by decide)
    · rfl

theorem digitsValue_digitUnits (k : ℕ) : digitsValue (digitUnits k) = k := by
  have hfold : ∀ (cs : List Char) (init : ℕ), (∀ c ∈ cs, c.isDigit = true) →
      (cs.map fun c => UInt16.ofNat c.toNat).foldl (fun n u => 10 * n + (u.toNat - 0x30)) init =
        Nat.ofDigitChars 10 cs init := by
    intro cs
    induction cs with
    | nil => exact fun _ _ => rfl
    | cons c cs ih =>
        intro init hcs
        obtain ⟨hnat, -⟩ := toNat_ofNat_digit (hcs c List.mem_cons_self)
        have hrest := ih (10 * init + (c.toNat - 0x30)) fun d hd =>
          hcs d (List.mem_cons_of_mem c hd)
        rw [List.map_cons, List.foldl_cons, hnat, hrest]
        rfl
  rw [digitsValue, digitUnits, hfold _ _ fun c hc => Text.isDigit_of_mem_digits hc,
    Nat.ofDigitChars_ten_toDigits]

theorem span_digitUnits (k : ℕ) : (digitUnits k).span isDigit = (digitUnits k, []) := by
  rw [List.span_eq_takeWhile_dropWhile, List.takeWhile_eq_self_iff.mpr isDigit_digitUnits,
    List.dropWhile_eq_nil_iff.mpr isDigit_digitUnits]

/-- A written integer stands for itself. -/
theorem literalValue_decimalUnits (n : ℤ) : literalValue (decimalUnits n) = n := by
  have hmagnitude : ((digitsValue (digitUnits n.natAbs) : ℚ) +
      (digitsValue [] : ℚ) / 10 ^ ([] : List CodeUnit).length) * 10 ^ exponentValue [] =
        (n.natAbs : ℤ) := by
    rw [digitsValue_digitUnits]
    simp [digitsValue, exponentValue]
  rw [literalValue, parseSign_decimalUnits]
  dsimp only
  rw [span_digitUnits]
  dsimp only [fractionSplit]
  rw [hmagnitude, signUnits]
  split_ifs with hn hsign hsign
  · cases hsign
  · rw [← Int.cast_neg]
    congr 1
    omega
  · congr 1
    omega
  · exact absurd rfl hsign

theorem numberValue_decimalUnits (hn : n.natAbs < 2 ^ 53) :
    numberValue (decimalUnits n) = some (n : ℚ) := by
  have hsmall : |(n : ℚ)| < 2 ^ (1024 : ℕ) := by
    have habs : |(n : ℚ)| = (n.natAbs : ℚ) := by rw [Nat.cast_natAbs, Int.cast_abs]
    rw [habs]
    have hcast : (n.natAbs : ℚ) < 2 ^ (53 : ℕ) := by exact_mod_cast hn
    exact hcast.trans (pow_lt_pow_right₀ (by norm_num) (by norm_num))
  rw [numberValue, literalValue_decimalUnits, Binary64.ofRat, Binary64.round_intCast hn,
    if_pos hsmall]

end Decimal

end Json
