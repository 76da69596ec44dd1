import Mathlib
import ExactUnits.Number.Basic

/-!
# Quotients and powers of numbers

Division and integer powers are those of the rationals wherever they succeed, and
the conditions under which they do are exact.  Scaling is exact in both directions.

## Main results

* `Number.divide_eq_ok_iff` — division fails at zero only.
* `Number.power_eq_ok_iff` — **a power fails beyond the limit and at negative powers of
  zero only.**
* `Number.scaled_eq` — scaling multiplies by an integer power of the base.
-/

namespace ExactUnits.Number

theorem divide_eq_ok_iff {x y z : Number} : divide x y = .ok z ↔ y ≠ 0 ∧ z = x / y := by
  by_cases hy : y = 0
  · simp [hy, divide_zero]
  · simp [divide_of_ne hy, hy, eq_comm]

theorem ratPow_eq (x : Number) (n : ℕ) : Rat.pow x n = x ^ n := rfl

/-- A power with a negative exponent is one over the power with its magnitude. -/
theorem zpow_of_neg {e : ℤ} (he : e < 0) (x : Number) : x ^ e = (x ^ e.natAbs)⁻¹ := by
  have habs : e = -(e.natAbs : ℤ) := by omega
  conv_lhs => rw [habs, zpow_neg, zpow_natCast]

theorem zpow_of_nonneg {e : ℤ} (he : ¬ e < 0) (x : Number) : x ^ e = x ^ e.natAbs := by
  have habs : e = (e.natAbs : ℤ) := by omega
  conv_lhs => rw [habs, zpow_natCast]

/-- **The powers that succeed.** -/
theorem power_eq_ok_iff {x y : Number} {e : ℤ} :
    power x e = .ok y ↔ e.natAbs ≤ powerLimit ∧ (e < 0 → x ≠ 0) ∧ y = x ^ e := by
  by_cases hlimit : powerLimit < e.natAbs
  · simp [power, hlimit]
  rw [power, if_neg hlimit, ratPow_eq]
  by_cases he : e < 0
  · have hne : e.natAbs ≠ 0 := by omega
    rw [if_pos he, reciprocal, divide_eq_ok_iff, one_div, ← zpow_of_neg he]
    simp [he, Nat.not_lt.1 hlimit, hne]
  · rw [if_neg he, ← zpow_of_nonneg he]
    simp [he, Nat.not_lt.1 hlimit, eq_comm]

theorem scaled_eq (base : ℕ) (m e : ℤ) : scaled base m e = m * (base : ℚ) ^ e := by
  unfold scaled
  by_cases he : 0 ≤ e
  · have habs : e = (e.toNat : ℤ) := by omega
    rw [if_pos he]
    conv_rhs => rw [habs, zpow_natCast]
    exact_mod_cast rfl
  · have habs : e = -((-e).toNat : ℤ) := by omega
    have hpow : ((Nat.pow base (-e).toNat : ℕ) : ℚ) = (base : ℚ) ^ (-e).toNat := by
      exact_mod_cast rfl
    rw [if_neg he, Rat.mkRat_eq_div, hpow]
    conv_rhs => rw [habs, zpow_neg, zpow_natCast]
    exact div_eq_mul_inv _ _

end ExactUnits.Number
