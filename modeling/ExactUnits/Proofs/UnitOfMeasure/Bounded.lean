import ExactUnits.Proofs.UnitOfMeasure.Algebra

/-!
# Products that cannot overflow

An exponent that does not fit makes a product fail.  If no unit has an exponent beyond a
thousand, neither in its powers nor in its dimension, then a thousand powers of units can
be multiplied and divided in any order.

## Main definitions

* `UnitOfMeasure.Bounded` — the bounds on the exponents of a product of `k` powers.

## Main results

* `UnitOfMeasure.exists_pow`, `UnitOfMeasure.Bounded.exists_mul`,
  `UnitOfMeasure.Bounded.exists_div` — **powers, products and quotients exist and are
  bounded.**
-/

namespace ExactUnits.UnitOfMeasure

/-- Without an offset, not zero, and with exponents no larger than those of a product of `k`
powers: each contributes at most a thousand to an exponent of the name, and at most a
thousand times a thousand to one of the dimension. -/
structure Bounded (u : UnitOfMeasure) (k : ℕ) : Prop where
  offset : u.offset = none
  factor : u.factor ≠ 0
  name : ∀ x, |u.name.exponent x| ≤ 1000 * k
  dimension : ∀ x, |u.dimension.exponent x| ≤ 1000000 * k

variable {u v w : UnitOfMeasure} {j k : ℕ}

/-- The bounds stay below what can be stored. -/
theorem fits_of_abs_le {n b : ℤ} (h : |n| ≤ b) (hb : b ≤ 1000000 * 1000) : Exponent.Fits n := by
  rw [abs_le] at h
  unfold Exponent.Fits
  omega

theorem Bounded.one : one.Bounded 0 where
  offset := rfl
  factor := one_ne_zero
  name := fun x => by
    show |Monomial.one.exponent x| ≤ _
    rw [Monomial.exponent_one]
    decide
  dimension := fun x => by
    show |Monomial.one.exponent x| ≤ _
    rw [Monomial.exponent_one]
    decide

private theorem abs_add_le_of_le {a b : ℤ} {c : ℕ} (ha : |a| ≤ c * j) (hb : |b| ≤ c * k) :
    |a + b| ≤ c * (j + k : ℕ) := by
  have hsum := (abs_add_le a b).trans (add_le_add ha hb)
  rw [← mul_add] at hsum
  exact_mod_cast hsum

theorem Bounded.exists_mul (hu : u.Bounded j) (hv : v.Bounded k) (hjk : j + k ≤ 1000) :
    ∃ w, u.mul v = .ok w ∧ w.Bounded (j + k) := by
  have hname : ∀ x, |u.name.exponent x + v.name.exponent x| ≤ 1000 * (j + k : ℕ) :=
    fun x => abs_add_le_of_le (hu.name x) (hv.name x)
  have hdimension : ∀ x, |u.dimension.exponent x + v.dimension.exponent x| ≤
      1000000 * (j + k : ℕ) := fun x => abs_add_le_of_le (hu.dimension x) (hv.dimension x)
  obtain ⟨name, hn⟩ := Monomial.exists_mul fun x => fits_of_abs_le (hname x) (by omega)
  obtain ⟨dimension, hd⟩ := Monomial.exists_mul fun x => fits_of_abs_le (hdimension x) (by omega)
  refine ⟨⟨name, u.factor * v.factor, dimension, none⟩, ?_, rfl, ?_, fun x => ?_, fun x => ?_⟩
  · exact mul_eq_ok_iff.2 ⟨hn, rfl, hd, rfl⟩
  · exact mul_ne_zero hu.factor hv.factor
  · rw [Monomial.mul_eq_ok_iff.1 hn]
    exact hname x
  · rw [Monomial.mul_eq_ok_iff.1 hd]
    exact hdimension x

theorem Bounded.exists_div (hu : u.Bounded j) (hv : v.Bounded k) (hjk : j + k ≤ 1000) :
    ∃ w, u.div v = .ok w ∧ w.Bounded (j + k) := by
  -- the divisor's exponents are negated on their own before they are added
  have hname' : ∀ x, |-v.name.exponent x| ≤ 1000 * k := fun x => (abs_neg _).trans_le (hv.name x)
  have hdimension' : ∀ x, |-v.dimension.exponent x| ≤ 1000000 * k :=
    fun x => (abs_neg _).trans_le (hv.dimension x)
  have hname : ∀ x, |u.name.exponent x - v.name.exponent x| ≤ 1000 * (j + k : ℕ) := fun x => by
    rw [sub_eq_add_neg]
    exact abs_add_le_of_le (hu.name x) (hname' x)
  have hdimension : ∀ x, |u.dimension.exponent x - v.dimension.exponent x| ≤
      1000000 * (j + k : ℕ) := fun x => by
    rw [sub_eq_add_neg]
    exact abs_add_le_of_le (hu.dimension x) (hdimension' x)
  obtain ⟨name, hn⟩ := Monomial.exists_div (fun x => fits_of_abs_le (hname' x) (by omega))
    fun x => fits_of_abs_le (hname x) (by omega)
  obtain ⟨dimension, hd⟩ :=
    Monomial.exists_div (fun x => fits_of_abs_le (hdimension' x) (by omega))
      fun x => fits_of_abs_le (hdimension x) (by omega)
  refine ⟨⟨name, u.factor / v.factor, dimension, none⟩, ?_, rfl, ?_, fun x => ?_, fun x => ?_⟩
  · exact div_eq_ok_iff.2 ⟨hn, ⟨hv.factor, rfl⟩, hd, rfl⟩
  · exact div_ne_zero hu.factor hv.factor
  · rw [(Monomial.div_eq_ok_iff.1 hn).2]
    exact hname x
  · rw [(Monomial.div_eq_ok_iff.1 hd).2]
    exact hdimension x

/-- The first power is no exception for the exponents. -/
theorem exponent_of_pow {n : ℤ} (h : u.pow n = .ok w) (x : String) :
    w.name.exponent x = u.name.exponent x * n := by
  by_cases hn : n = 1
  · rw [pow, if_pos hn] at h
    obtain rfl := Except.ok.inj h
    rw [hn, mul_one]
  · exact (Monomial.pow_eq_ok_iff.1 ((pow_eq_ok_iff hn).1 h).1).2 x

/-- A power of a unit with a name and small exponents of its own. -/
theorem exists_pow {n : String} (hname : u.name = Monomial.atom n) (hoffset : u.offset = none)
    (hfactor : u.factor ≠ 0) (hdimension : ∀ x, |u.dimension.exponent x| ≤ 1000) {e : ℤ}
    (he : e ≠ 0) (hlimit : |e| ≤ 1000) : ∃ w, u.pow e = .ok w ∧ w.Bounded 1 := by
  have hatom : ∀ x, |u.name.exponent x * e| ≤ 1000 := fun x => by
    rw [hname, Monomial.exponent_atom]
    split
    · rwa [one_mul]
    · rw [zero_mul]
      decide
  have hproduct : ∀ x, |u.dimension.exponent x * e| ≤ 1000000 := fun x => by
    rw [abs_mul]
    exact (mul_le_mul (hdimension x) hlimit (abs_nonneg e) (by decide)).trans (by decide)
  by_cases hone : e = 1
  · -- the first power is the unit itself
    subst hone
    refine ⟨u, if_pos rfl, hoffset, hfactor, fun x => ?_, fun x => ?_⟩
    · simpa using hatom x
    · simpa using hproduct x
  · obtain ⟨name, hn⟩ := Monomial.exists_pow he fun x => fits_of_abs_le (hatom x) (by decide)
    obtain ⟨dimension, hd⟩ :=
      Monomial.exists_pow he fun x => fits_of_abs_le (hproduct x) (by decide)
    have hpower : Number.power u.factor e = .ok (u.factor ^ e) := by
      refine Number.power_eq_ok_iff.2 ⟨?_, fun _ => hfactor, rfl⟩
      rw [Int.abs_eq_natAbs] at hlimit
      unfold Number.powerLimit
      omega
    refine ⟨⟨name, u.factor ^ e, dimension, none⟩, ?_, rfl, ?_, fun x => ?_, fun x => ?_⟩
    · exact (pow_eq_ok_iff hone).2 ⟨hn, hpower, hd, rfl⟩
    · exact zpow_ne_zero e hfactor
    · rw [(Monomial.pow_eq_ok_iff.1 hn).2]
      simpa using hatom x
    · rw [(Monomial.pow_eq_ok_iff.1 hd).2]
      simpa using hproduct x

end ExactUnits.UnitOfMeasure
