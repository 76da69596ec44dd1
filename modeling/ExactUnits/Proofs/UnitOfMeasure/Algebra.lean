import ExactUnits.UnitOfMeasure
import ExactUnits.Proofs.Monomial.Exponents
import ExactUnits.Proofs.Number.Power

/-!
# The algebra of units, part by part

A product, a quotient or a power of units succeeds exactly if it does for the name,
the factor and the dimension, and none of them has an offset, except for the first
power, which is the unit itself.

## Main results

* `UnitOfMeasure.mul_eq_ok_iff`, `UnitOfMeasure.div_eq_ok_iff`,
  `UnitOfMeasure.pow_eq_ok_iff` — **the operations by their parts.**
-/

namespace ExactUnits.UnitOfMeasure

theorem isAffine_eq_false_iff {u : UnitOfMeasure} : u.isAffine = false ↔ u.offset = none := by
  simp [isAffine]

/-- **A product succeeds if those of the names and the dimensions do.** -/
theorem mul_eq_ok_iff {u v w : UnitOfMeasure} :
    u.mul v = .ok w ↔
      u.name.mul v.name = .ok w.name ∧ w.factor = u.factor * v.factor ∧
        u.dimension.mul v.dimension = .ok w.dimension ∧ w.offset = none := by
  simp only [mul, Except.bind_eq_ok_iff, Except.mapError_eq_ok_iff, Except.pure_eq_ok_iff]
  constructor
  · rintro ⟨name, hname, dimension, hdimension, rfl⟩
    exact ⟨hname, rfl, hdimension, rfl⟩
  · rintro ⟨hname, hfactor, hdimension, hoffset⟩
    refine ⟨_, hname, _, hdimension, ?_⟩
    rw [← hfactor, ← hoffset]

/-- **A quotient succeeds if those of the names, the factors and the dimensions do.** -/
theorem div_eq_ok_iff {u v w : UnitOfMeasure} :
    u.div v = .ok w ↔
      u.name.div v.name = .ok w.name ∧ (v.factor ≠ 0 ∧ w.factor = u.factor / v.factor) ∧
        u.dimension.div v.dimension = .ok w.dimension ∧ w.offset = none := by
  simp only [div, Except.bind_eq_ok_iff, Except.mapError_eq_ok_iff, Except.pure_eq_ok_iff,
    Number.divide_eq_ok_iff]
  constructor
  · rintro ⟨name, hname, factor, hfactor, dimension, hdimension, rfl⟩
    exact ⟨hname, hfactor, hdimension, rfl⟩
  · rintro ⟨hname, hfactor, hdimension, hoffset⟩
    refine ⟨_, hname, _, hfactor, _, hdimension, ?_⟩
    rw [← hoffset]

/-- **A power other than the first succeeds if those of the name, the factor and the
dimension do.** -/
theorem pow_eq_ok_iff {u w : UnitOfMeasure} {n : Int} (hn : n ≠ 1) :
    u.pow n = .ok w ↔
      u.name.pow n = .ok w.name ∧ Number.power u.factor n = .ok w.factor ∧
        u.dimension.pow n = .ok w.dimension ∧ w.offset = none := by
  simp only [pow, if_neg hn, Except.bind_eq_ok_iff, Except.mapError_eq_ok_iff,
    Except.pure_eq_ok_iff]
  constructor
  · rintro ⟨name, hname, factor, hfactor, dimension, hdimension, rfl⟩
    exact ⟨hname, hfactor, hdimension, rfl⟩
  · rintro ⟨hname, hfactor, hdimension, hoffset⟩
    refine ⟨_, hname, _, hfactor, _, hdimension, ?_⟩
    rw [← hoffset]

end ExactUnits.UnitOfMeasure
