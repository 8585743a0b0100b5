import Mathlib.Data.Int.Log
import Mathlib.Data.Rat.Floor
import Mathlib.Tactic.Linarith

/-!
# Numbers of 53 bits

The numbers of JavaScript are the rationals with 53 significant bits. What a rational
is rounded to, and how an integer is written: with as few digits as tell it from the
numbers around it. The integers below `2 ^ 53` are numbers, and are written as they are.
-/

namespace Binary64

/-- To the nearest integer, and to the even one of two. -/
def roundEven (x : ℚ) : ℤ :=
  if x - ⌊x⌋ < 1 / 2 then ⌊x⌋ else if 1 / 2 < x - ⌊x⌋ then ⌊x⌋ + 1 else ⌊x⌋ + ⌊x⌋ % 2

/-- The numbers around `x` are the multiples of this power of two. -/
def exponent (x : ℚ) : ℤ := max (Int.log 2 |x| - 52) (-1074)

/-- The number nearest to `x`, were the exponents unbounded above. -/
def round (x : ℚ) : ℚ := roundEven (x / 2 ^ exponent x) * 2 ^ exponent x

/-- The number that stands for `x`; `none` is an infinity. -/
def ofRat (x : ℚ) : Option ℚ := if |round x| < 2 ^ (1024 : ℕ) then some (round x) else none

/-- `Number.isInteger` of such a number, with its value. -/
def integer? (x : Option ℚ) : Option ℤ := x.bind fun x => if x.den = 1 then some x.num else none

/-- The multiple of `p` next to `x` that is rounded to `x`; of two the nearer, and of two as near the
even one. -/
def multiple? (x p : ℕ) : Option ℕ :=
  let low := x / p * p
  if round low = x ∧ (round (low + p : ℕ) ≠ x ∨ 2 * (x - low) < p ∨
      2 * (x - low) = p ∧ x / p % 2 = 0) then some low
  else if round (low + p : ℕ) = x then some (low + p)
  else none

/-- The integer with the most zeros at its end that is rounded to `x`, of up to so many zeros. -/
def shortest (x : ℕ) : ℕ → ℕ
  | 0 => x
  | zeros + 1 => (multiple? x (10 ^ (zeros + 1))).getD (shortest x zeros)

/-- The integer that is written for the number nearest to `n`: the digits that tell it from its
neighbours, and zeros behind them. -/
def written (n : ℤ) : ℤ :=
  let x := (round n).num
  x.sign * shortest x.natAbs (Nat.toDigits 10 x.natAbs).length

variable {x : ℚ} {n : ℤ} {m p k : ℕ}

theorem roundEven_intCast (n : ℤ) : roundEven (n : ℚ) = n := by
  simp [roundEven]

theorem le_roundEven (h : (n : ℚ) ≤ x) : n ≤ roundEven x := by
  have hfloor : n ≤ ⌊x⌋ := Int.le_floor.mpr h
  unfold roundEven
  split_ifs
  · exact hfloor
  · omega
  · omega

/-- An integer below `2 ^ 53` has no more than 53 bits. -/
theorem exponent_nonpos (hn : n.natAbs < 2 ^ 53) : exponent (n : ℚ) ≤ 0 := by
  have habs : |(n : ℚ)| = (n.natAbs : ℚ) := by rw [Nat.cast_natAbs, Int.cast_abs]
  have hlog : Nat.log 2 n.natAbs < 53 := Nat.log_lt_of_lt_pow' (by norm_num) hn
  rw [exponent, habs, Int.log_natCast]
  omega

theorem round_intCast (hn : n.natAbs < 2 ^ 53) : round (n : ℚ) = n := by
  have hle := exponent_nonpos hn
  have hpow : (2 : ℚ) ^ exponent (n : ℚ) ≠ 0 := zpow_ne_zero _ (by norm_num)
  have hscaled : (n : ℚ) / 2 ^ exponent (n : ℚ) =
      ((n * 2 ^ (-exponent (n : ℚ)).toNat : ℤ) : ℚ) := by
    have hexp : ((-exponent (n : ℚ)).toNat : ℤ) = -exponent (n : ℚ) := Int.toNat_of_nonneg (by omega)
    rw [Int.cast_mul, Int.cast_pow, Int.cast_ofNat, ← zpow_natCast, hexp, zpow_neg, div_eq_mul_inv]
  have hrounded : (roundEven (n / 2 ^ exponent (n : ℚ)) : ℚ) = n / 2 ^ exponent (n : ℚ) := by
    rw [hscaled, roundEven_intCast]
  rw [round, hrounded, div_mul_cancel₀ _ hpow]

/-- Beyond the integers that are numbers there are numbers only beyond them. -/
theorem le_round (hm : 2 ^ 53 ≤ m) : 2 ^ 53 ≤ round (m : ℚ) := by
  have hpos : m ≠ 0 := by
    have h53 : 0 < 2 ^ 53 := by norm_num
    omega
  have hlog : 53 ≤ Nat.log 2 m := Nat.le_log_of_pow_le (by norm_num) hm
  have hexp : exponent (m : ℚ) = (Nat.log 2 m : ℤ) - 52 := by
    rw [exponent, Nat.abs_cast, Int.log_natCast]
    omega
  have hpow : (0 : ℚ) < 2 ^ exponent (m : ℚ) := zpow_pos (by norm_num) _
  have hsplit : (2 : ℚ) ^ 52 * 2 ^ exponent (m : ℚ) = 2 ^ Nat.log 2 m := by
    rw [hexp, ← zpow_natCast, ← zpow_natCast, ← zpow_add₀ (by norm_num)]
    congr 1
    push_cast
    ring
  have hlow : ((2 ^ 52 : ℤ) : ℚ) ≤ m / 2 ^ exponent (m : ℚ) := by
    rw [le_div_iff₀ hpow, Int.cast_pow, Int.cast_ofNat, hsplit]
    exact_mod_cast Nat.pow_log_le_self 2 hpos
  have hrounded : ((2 ^ 52 : ℤ) : ℚ) ≤ roundEven (m / 2 ^ exponent (m : ℚ)) :=
    Int.cast_le.mpr (le_roundEven hlow)
  calc (2 : ℚ) ^ 53 ≤ 2 ^ Nat.log 2 m := pow_le_pow_right₀ (by norm_num) hlog
    _ = 2 ^ 52 * 2 ^ exponent (m : ℚ) := hsplit.symm
    _ ≤ round m := by
        rw [Int.cast_pow, Int.cast_ofNat] at hrounded
        exact mul_le_mul_of_nonneg_right hrounded hpow.le

/-- No other integer is rounded to one below `2 ^ 53`. -/
theorem eq_of_round_eq (hm : m < 2 ^ 53) (h : round (k : ℚ) = m) : k = m := by
  by_cases hk : k < 2 ^ 53
  · have hself := round_intCast (n := k) (by simpa using hk)
    rw [Int.cast_natCast, h] at hself
    exact_mod_cast hself.symm
  · have hle := le_round (not_lt.mp hk)
    rw [h] at hle
    exact absurd (by exact_mod_cast hle) (not_le.mpr hm)

theorem shortest_eq (hm : m < 2 ^ 53) (zeros : ℕ) : shortest m zeros = m := by
  induction zeros with
  | zero => rfl
  | succ zeros ih =>
      rw [shortest, multiple?]
      split_ifs with hlow hhigh
      · exact eq_of_round_eq hm hlow.1
      · exact eq_of_round_eq hm hhigh
      · exact ih

/-- The integers that are numbers are written as they are. -/
theorem written_eq (hn : n.natAbs < 2 ^ 53) : written n = n := by
  rw [written, round_intCast hn, Rat.num_intCast, shortest_eq hn, Int.sign_mul_natAbs]

end Binary64
