import Mathlib.Algebra.Order.Ring.Int
import Mathlib.Data.Int.Init

/-!
# Checked C integers

Signed arithmetic of C and C++ on 32 and 64 bits. A result outside the type is
undefined there, and `none` here.
-/

namespace CInt

/-- The values of `int`. -/
def IsInt (v : ℤ) : Prop := -2 ^ 31 ≤ v ∧ v < 2 ^ 31

/-- The values of `long long`. -/
def IsLong (v : ℤ) : Prop := -2 ^ 63 ≤ v ∧ v < 2 ^ 63

instance (v : ℤ) : Decidable (IsInt v) := inferInstanceAs (Decidable (_ ∧ _))

instance (v : ℤ) : Decidable (IsLong v) := inferInstanceAs (Decidable (_ ∧ _))

/-- The result of an operation on `int`. -/
def int (v : ℤ) : Option ℤ := if IsInt v then some v else none

/-- The result of an operation on `long long`. -/
def long (v : ℤ) : Option ℤ := if IsLong v then some v else none

/-- `a / b` on `long long`. -/
def divLong (a b : ℤ) : Option ℤ := if b = 0 then none else long (a.tdiv b)

/-- `static_cast<int>`, which keeps the low bits. -/
def toInt (v : ℤ) : ℤ := v.bmod (2 ^ 32)

variable {a b v : ℤ}

theorem int_eq (h : IsInt v) : int v = some v := if_pos h

theorem long_eq (h : IsLong v) : long v = some v := if_pos h

/-- Dividing what is not negative by a positive number. -/
theorem divLong_eq (ha : 0 ≤ a) (hlong : IsLong a) (hb : 0 < b) : divLong a b = some (a / b) := by
  have hle : a / b ≤ a := Int.ediv_le_self b ha
  have hquotient : IsLong (a / b) := by
    have hnonneg : 0 ≤ a / b := Int.ediv_nonneg ha hb.le
    obtain ⟨-, hlt⟩ := hlong
    exact ⟨by omega, by omega⟩
  rw [divLong, if_neg hb.ne', Int.tdiv_eq_ediv_of_nonneg ha, long_eq hquotient]

end CInt
