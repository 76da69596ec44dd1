import ExactUnits.Proofs.Monomial.Overflow
import ExactUnits.Proofs.UnitOfMeasure.Algebra

/-!
# Overflow in the algebra of units

A product, a quotient or a power fails where an exponent does not fit.  Nothing else can go
wrong, as long as nothing is divided by a unit with factor zero, and no power is the zeroth
or beyond the limit of numbers.

## Main results

* `exists_of_mul_eq_error`, `exists_of_div_eq_error`, `exists_of_pow_eq_error` — **an exponent
  that does not fit is all that can go wrong with units.**
-/

namespace ExactUnits.UnitOfMeasure

variable {u v : UnitOfMeasure} {e : UnitError}

/-- The errors of names and dimensions are errors of units. -/
private theorem exists_of_mapError {x : Except ExponentError Monomial}
    (hx : ∀ cause, x = .error cause → ∃ name, cause = .outOfRange name)
    (h : x.mapError .exponent = .error e) : ∃ name, e = .exponent (.outOfRange name) := by
  obtain ⟨cause, hcause, rfl⟩ := Except.mapError_eq_error_iff.1 h
  obtain ⟨name, rfl⟩ := hx cause hcause
  exact ⟨name, rfl⟩

/-- **A product fails only where an exponent does not fit.** -/
theorem exists_of_mul_eq_error (h : u.mul v = .error e) :
    ∃ name, e = .exponent (.outOfRange name) := by
  rw [mul, Except.bind_eq_error_iff] at h
  rcases h with h | ⟨name, -, h⟩
  · exact exists_of_mapError (fun _ => Monomial.exists_of_mul_eq_error) h
  · rcases Except.bind_eq_error_iff.1 h with h | ⟨dimension, -, h⟩
    · exact exists_of_mapError (fun _ => Monomial.exists_of_mul_eq_error) h
    · cases h

/-- **A quotient by a unit other than zero fails only where an exponent does not fit.** -/
theorem exists_of_div_eq_error (hv : v.factor ≠ 0) (h : u.div v = .error e) :
    ∃ name, e = .exponent (.outOfRange name) := by
  rw [div, Number.divide_of_ne hv, Except.bind_eq_error_iff] at h
  rcases h with h | ⟨name, -, h⟩
  · exact exists_of_mapError (fun _ => Monomial.exists_of_div_eq_error) h
  · rw [Except.mapError_ok, Except.ok_bind] at h
    rcases Except.bind_eq_error_iff.1 h with h | ⟨dimension, -, h⟩
    · exact exists_of_mapError (fun _ => Monomial.exists_of_div_eq_error) h
    · cases h

/-- **A power of a unit other than zero fails only where an exponent does not fit**, unless it is
the zeroth or beyond the limit. -/
theorem exists_of_pow_eq_error {n : Int} (hu : u.factor ≠ 0) (hn : n ≠ 0)
    (hlimit : n.natAbs ≤ Number.powerLimit) (h : u.pow n = .error e) :
    ∃ name, e = .exponent (.outOfRange name) := by
  have hpower : Number.power u.factor n = .ok (u.factor ^ n) :=
    Number.power_eq_ok_iff.2 ⟨hlimit, fun _ => hu, rfl⟩
  rw [pow] at h
  split at h
  · cases h
  · rw [hpower, Except.bind_eq_error_iff] at h
    rcases h with h | ⟨name, -, h⟩
    · exact exists_of_mapError (fun _ => Monomial.exists_of_pow_eq_error hn) h
    · rw [Except.mapError_ok, Except.ok_bind] at h
      rcases Except.bind_eq_error_iff.1 h with h | ⟨dimension, -, h⟩
      · exact exists_of_mapError (fun _ => Monomial.exists_of_pow_eq_error hn) h
      · cases h

end ExactUnits.UnitOfMeasure
