import Mathlib
import ExactUnits.Proofs.Number.Power

/-!
# The laws of powers

A power is refused for one of two reasons, the exponent before the base, and is exact otherwise.
The numerator and the denominator of the base are raised separately.  For a negative exponent they
change places, and the sign goes with the new numerator; since a common factor of the results would
be one of the base, nothing has to be cancelled.

## Main definitions

* `PowerOutcome` — what a power comes to.
* `IsPower` — the exact power as a fraction in lowest terms.

## Main results

* `power_eq_iff` — the three outcomes of a power.
* `isPower_zpow` — numerator and denominator of a power.
* `power_exact` — **a power fails or is exact as its exponent and base say, and the powers that
  there are obey the laws of exponents.**
-/

namespace ExactUnits.Number

variable {x y : Number} {e : ℤ}

/-! ### Outcomes -/

/-- What a power comes to.  The limit on the exponent counts first. -/
inductive PowerOutcome (x : Number) (e : ℤ) : Except NumberError Number → Prop
  /-- The exponent is beyond the limit, whatever the base. -/
  | overflow (hlimit : powerLimit < e.natAbs) : PowerOutcome x e (.error .overflow)
  /-- A negative power of zero. -/
  | divisionByZero (hlimit : e.natAbs ≤ powerLimit) (hx : x = 0) (he : e < 0) :
      PowerOutcome x e (.error .divisionByZero)
  /-- Any other power. -/
  | exact (hlimit : e.natAbs ≤ powerLimit) (hx : e < 0 → x ≠ 0) : PowerOutcome x e (.ok (x ^ e))

theorem power_zero_of_neg (hlimit : e.natAbs ≤ powerLimit) (he : e < 0) :
    power 0 e = .error .divisionByZero := by
  have hne : e.natAbs ≠ 0 := by omega
  have hzero : Rat.pow 0 e.natAbs = 0 := by rw [ratPow_eq, zero_pow hne]
  rw [power, if_neg (Nat.not_lt.2 hlimit), if_pos he, hzero]
  exact divide_zero 1

theorem power_outcome (x : Number) (e : ℤ) : PowerOutcome x e (power x e) := by
  by_cases hlimit : powerLimit < e.natAbs
  · rw [power, if_pos hlimit]
    exact .overflow hlimit
  · have hle := Nat.not_lt.1 hlimit
    by_cases hzero : x = 0 ∧ e < 0
    · obtain ⟨rfl, he⟩ := hzero
      rw [power_zero_of_neg hle he]
      exact .divisionByZero hle rfl he
    · have hx : e < 0 → x ≠ 0 := fun he hx => hzero ⟨hx, he⟩
      rw [power_eq_ok_iff.2 ⟨hle, hx, rfl⟩]
      exact .exact hle hx

/-- **The three outcomes of a power.** -/
theorem power_eq_iff {outcome : Except NumberError Number} :
    power x e = outcome ↔ PowerOutcome x e outcome := by
  constructor
  · rintro rfl
    exact power_outcome x e
  · intro h
    cases h with
    | overflow hlimit => exact if_pos hlimit
    | divisionByZero hlimit hx he => exact hx ▸ power_zero_of_neg hlimit he
    | exact hlimit hx => exact power_eq_ok_iff.2 ⟨hlimit, hx, rfl⟩

/-! ### Numerator and denominator -/

/-- `y` is `x` to the power `e`, written as a fraction in lowest terms. -/
structure IsPower (x : Number) (e : ℤ) (y : Number) : Prop where
  /-- The value is exact. -/
  value : y = x ^ e
  /-- Above the bar is the power of the numerator, or that of the denominator with the sign. -/
  num : y.num = if e < 0 then (x.num ^ e.natAbs).sign * x.den ^ e.natAbs else x.num ^ e.natAbs
  /-- Below the bar is the power of the denominator, or the size of that of the numerator. -/
  den : y.den = if e < 0 then x.num.natAbs ^ e.natAbs else x.den ^ e.natAbs
  /-- The denominator is positive. -/
  pos : 0 < y.den
  /-- Nothing is left to be cancelled. -/
  reduced : y.num.natAbs.Coprime y.den

theorem num_zpow (x : Number) (e : ℤ) :
    (x ^ e).num =
      if e < 0 then (x.num ^ e.natAbs).sign * x.den ^ e.natAbs else x.num ^ e.natAbs := by
  split
  · next he => rw [zpow_of_neg he, Rat.num_inv, Rat.num_pow, Rat.den_pow, Nat.cast_pow]
  · next he => rw [zpow_of_nonneg he, Rat.num_pow]

theorem den_zpow (hx : e < 0 → x ≠ 0) :
    (x ^ e).den = if e < 0 then x.num.natAbs ^ e.natAbs else x.den ^ e.natAbs := by
  split
  · next he =>
    rw [zpow_of_neg he, Rat.den_inv_of_ne_zero (pow_ne_zero _ (hx he)), Rat.num_pow,
      Int.natAbs_pow]
  · next he => rw [zpow_of_nonneg he, Rat.den_pow]

/-- **Numerator and denominator of a power.** -/
theorem isPower_zpow (hx : e < 0 → x ≠ 0) : IsPower x e (x ^ e) where
  value := rfl
  num := num_zpow x e
  den := den_zpow hx
  pos := (x ^ e).den_pos
  reduced := (x ^ e).reduced

/-! ### Laws -/

/-- Powers that there are have the exponents added. -/
theorem mul_of_power {m n : ℤ} {a b : Number} (ha : power x m = .ok a) (hb : power x n = .ok b) :
    a * b = x ^ (m + n) := by
  obtain ⟨-, hm, rfl⟩ := power_eq_ok_iff.1 ha
  obtain ⟨-, hn, rfl⟩ := power_eq_ok_iff.1 hb
  by_cases hx : x = 0
  · -- no exponent is negative, so the exponents are both zero if their sum is
    have hm' : 0 ≤ m := not_lt.1 fun h => hm h hx
    have hn' : 0 ≤ n := not_lt.1 fun h => hn h hx
    have hsum : m + n ≠ 0 ∨ m = 0 ∧ n = 0 := by omega
    exact (zpow_add' (.inr hsum)).symm
  · exact (zpow_add₀ hx m n).symm

/-- A power of a power that there is has the exponents multiplied. -/
theorem eq_of_power_power {m n : ℤ} {a b : Number} (ha : power x m = .ok a)
    (hb : power a n = .ok b) : b = x ^ (m * n) := by
  obtain ⟨-, -, rfl⟩ := power_eq_ok_iff.1 ha
  obtain ⟨-, -, rfl⟩ := power_eq_ok_iff.1 hb
  exact (zpow_mul x m n).symm

/-- **Powers are exact.**  A power overflows exactly if the exponent is beyond 4096 in either
direction, whatever the base; otherwise it divides by zero exactly if it is a negative power of
zero, and it is the exact power in lowest terms in all other cases.  The powers that there are
obey the laws of exponents, those of zero included. -/
theorem power_exact (x : Number) :
    (∀ e : ℤ,
      (power x e = .error .overflow ↔ 4096 < e.natAbs) ∧
      (power x e = .error .divisionByZero ↔ e.natAbs ≤ 4096 ∧ x = 0 ∧ e < 0) ∧
      (e.natAbs ≤ 4096 → ¬ (x = 0 ∧ e < 0) → ∃ y, power x e = .ok y ∧ IsPower x e y)) ∧
    (∀ m n a b c, power x m = .ok a → power x n = .ok b → power x (m + n) = .ok c → a * b = c) ∧
    ∀ m n a b c, power x m = .ok a → power a n = .ok b → power x (m * n) = .ok c → b = c := by
  refine ⟨fun e => ?_, ?_, ?_⟩
  · simp only [power_eq_iff]
    refine ⟨⟨?_, .overflow⟩, ⟨?_, fun ⟨hlimit, hx, he⟩ => .divisionByZero hlimit hx he⟩, ?_⟩
    · intro h
      cases h with
      | overflow hlimit => exact hlimit
    · intro h
      cases h with
      | divisionByZero hlimit hx he => exact ⟨hlimit, hx, he⟩
    · intro hlimit hzero
      -- no negative power of zero is left
      have hx : e < 0 → x ≠ 0 := fun he hx => hzero ⟨hx, he⟩
      exact ⟨x ^ e, .exact hlimit hx, isPower_zpow hx⟩
  · intro m n a b c ha hb hc
    rw [mul_of_power ha hb, (power_eq_ok_iff.1 hc).2.2]
  · intro m n a b c ha hb hc
    rw [eq_of_power_power ha hb, (power_eq_ok_iff.1 hc).2.2]

/-- The third power of -2/3, the inverse of its fourth power and the inverse of itself, which is
their product; and an exponent at the end of its range. -/
theorem power_exact_two_thirds :
    (power (mkRat (-2) 3) 3 = .ok (mkRat (-8) 27) ∧
      power (mkRat (-2) 3) (-4) = .ok (mkRat 81 16) ∧
      power (mkRat (-2) 3) (3 + -4) = .ok (mkRat (-3) 2) ∧
      mkRat (-8) 27 * mkRat 81 16 = mkRat (-3) 2) ∧
      power 0 (-2147483648) = .error .overflow := by
  have hthird : power (mkRat (-2) 3) 3 = .ok (mkRat (-8) 27) := by decide +kernel
  have hfourth : power (mkRat (-2) 3) (-4) = .ok (mkRat 81 16) := by decide +kernel
  have hinverse : power (mkRat (-2) 3) (3 + -4) = .ok (mkRat (-3) 2) := by decide +kernel
  obtain ⟨-, hadd, -⟩ := power_exact (mkRat (-2) 3)
  obtain ⟨hoverflow, -, -⟩ := (power_exact 0).1 (-2147483648)
  exact ⟨⟨hthird, hfourth, hinverse, hadd 3 (-4) _ _ _ hthird hfourth hinverse⟩,
    hoverflow.2 (by decide)⟩

end ExactUnits.Number
