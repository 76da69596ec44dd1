import Mathlib.Algebra.Order.Field.Rat
import Mathlib.Tactic.FieldSimp
import Mathlib.Tactic.Ring
import ExactUnits.Proofs.Outcome
import ExactUnits.Quantity.Basic

/-!
# Conversion keeps the base value

Every quantity has a value in the base unit of its dimension, which is kelvin for
plain temperatures.  A conversion is possible exactly between units of one
dimension, and its result is the value with the same base value.  So a chain of
conversions ends where the direct conversion from its first to its last unit
ends, and a chain that comes back to its first unit changes nothing.

## Main definitions

* `convertAlong` — conversion from unit to unit along a list.

## Main results

* `convertValue_of_dimension_ne`, `convertValue_of_dimension_eq` — what a conversion comes to.
* `convertValue_eq_ok_iff` — the conversions that succeed, by base values.
* `Quantity.toBase_injective` — a unit with a factor has one value for a base value.
* `convertValue_eq_of_convertAlong` — **conversion does not depend on the path.**
-/

namespace ExactUnits

/-! ### Base values -/

namespace TemperatureScale

/-- No scale has degrees of size zero. -/
theorem degree_ne_zero (scale : TemperatureScale) : scale.degree ≠ 0 := by
  cases scale <;> decide +kernel

end TemperatureScale

namespace Quantity

/-- The base value of a quantity that is no plain temperature. -/
theorem toBase_of_not_temperature {u : UnitOfMeasure} (h : u.dimension.isTemperature = false)
    (v : Number) : (⟨v, u⟩ : Quantity).toBase = .ok (v * u.factor) := by
  simp [toBase, dimension, h, UnitOfMeasure.toBase]

/-- The base value of a plain temperature, given its scale. -/
theorem toBase_of_temperature {u : UnitOfMeasure} {scale : TemperatureScale}
    (h : u.dimension.isTemperature = true) (hscale : TemperatureScale.ofUnit u = .ok scale)
    (v : Number) :
    (⟨v, u⟩ : Quantity).toBase = .ok ((v * u.factor + scale.origin u) * scale.degree) := by
  simp [toBase, dimension, h, toKelvin, hscale]

/-- A plain temperature has a base value only on a scale. -/
theorem exists_scale_of_toBase {u : UnitOfMeasure} {v b : Number}
    (h : u.dimension.isTemperature = true) (hb : (⟨v, u⟩ : Quantity).toBase = .ok b) :
    ∃ scale, TemperatureScale.ofUnit u = .ok scale := by
  rw [toBase, dimension, if_pos h, toKelvin, Except.bind_eq_ok_iff] at hb
  obtain ⟨scale, hscale, -⟩ := hb
  exact ⟨scale, Except.mapError_eq_ok_iff.1 hscale⟩

theorem toBase_injective {u : UnitOfMeasure} (hu : u.factor ≠ 0) {x y b : Number}
    (hx : (⟨x, u⟩ : Quantity).toBase = .ok b) (hy : (⟨y, u⟩ : Quantity).toBase = .ok b) :
    x = y := by
  cases ht : u.dimension.isTemperature with
  | false =>
    rw [toBase_of_not_temperature ht, Except.ok.injEq] at hx
    rw [toBase_of_not_temperature ht, Except.ok.injEq] at hy
    exact mul_right_cancel₀ hu (hx.trans hy.symm)
  | true =>
    obtain ⟨scale, hscale⟩ := exists_scale_of_toBase ht hx
    rw [toBase_of_temperature ht hscale, Except.ok.injEq] at hx
    rw [toBase_of_temperature ht hscale, Except.ok.injEq] at hy
    have hshifted := mul_right_cancel₀ scale.degree_ne_zero (hx.trans hy.symm)
    exact mul_right_cancel₀ hu (add_right_cancel hshifted)

/-- Every base value is that of some value on a scale. -/
theorem exists_toBase_eq {u : UnitOfMeasure} {scale : TemperatureScale}
    (htemperature : u.dimension.isTemperature = true) (hu : u.factor ≠ 0)
    (hscale : TemperatureScale.ofUnit u = .ok scale) (b : Number) :
    ∃ x, (⟨x, u⟩ : Quantity).toBase = .ok b := by
  refine ⟨(b / scale.degree - scale.origin u) / u.factor, ?_⟩
  rw [toBase_of_temperature htemperature hscale, div_mul_cancel₀ _ hu, sub_add_cancel,
    div_mul_cancel₀ _ scale.degree_ne_zero]

end Quantity

/-! ### One conversion -/

theorem fromBase_eq_ok_iff {u : UnitOfMeasure} {b x : Number} :
    u.fromBase b = .ok x ↔ u.factor ≠ 0 ∧ x * u.factor = b := by
  rw [UnitOfMeasure.fromBase, Except.mapError_eq_ok_iff]
  by_cases hu : u.factor = 0
  · simp [hu, Number.divide_zero]
  · rw [Number.divide_of_ne hu, Except.ok.injEq, div_eq_iff hu]
    exact ⟨fun h => ⟨hu, h.symm⟩, fun h => h.2.symm⟩

theorem UnitOfMeasure.isCompatible_iff {u w : UnitOfMeasure} :
    u.isCompatible w = true ↔ u.dimension = w.dimension := beq_iff_eq

/-- Units of different dimensions are refused, with the texts of both. -/
theorem convertValue_of_dimension_ne {u w : UnitOfMeasure} (h : u.dimension ≠ w.dimension)
    (v : Number) :
    convertValue v u w = .error (.showing [u.dimension, w.dimension]
      (.incompatible u.dimension.toText w.dimension.toText)) := by
  have hcompatible : u.isCompatible w = false :=
    Bool.eq_false_iff.2 (mt UnitOfMeasure.isCompatible_iff.1 h)
  rw [convertValue, hcompatible, Bool.not_false, if_pos rfl]

/-- Between units of one dimension, a value moves by way of kelvin or by the factors. -/
theorem convertValue_of_dimension_eq {u w : UnitOfMeasure} (h : u.dimension = w.dimension)
    (v : Number) :
    convertValue v u w =
      if w.dimension.isTemperature then toKelvin v u >>= fun kelvin => fromKelvin kelvin w
      else (w.fromBase (u.toBase v)).mapError .returned := by
  rw [convertValue, UnitOfMeasure.isCompatible_iff.2 h, Bool.not_true,
    if_neg Bool.false_ne_true, h]

/-- **A conversion succeeds exactly between units of one dimension, into a unit with
a factor, and its result is the value with the same base value.** -/
theorem convertValue_eq_ok_iff {u w : UnitOfMeasure} {v x : Number} :
    convertValue v u w = .ok x ↔
      u.dimension = w.dimension ∧ w.factor ≠ 0 ∧
        ∃ b, (⟨v, u⟩ : Quantity).toBase = .ok b ∧ (⟨x, w⟩ : Quantity).toBase = .ok b := by
  by_cases hdim : u.dimension = w.dimension
  case neg => simp [convertValue_of_dimension_ne hdim, hdim]
  simp only [convertValue_of_dimension_eq hdim, hdim, true_and]
  cases ht : w.dimension.isTemperature with
  | false =>
    -- off the temperatures both base values are products with the factors
    have hv : (⟨v, u⟩ : Quantity).toBase = .ok (v * u.factor) :=
      Quantity.toBase_of_not_temperature (hdim ▸ ht) v
    have hx : (⟨x, w⟩ : Quantity).toBase = .ok (x * w.factor) :=
      Quantity.toBase_of_not_temperature ht x
    simp [fromBase_eq_ok_iff, UnitOfMeasure.toBase, hv, hx]
  | true =>
    -- temperatures go by way of kelvin, which is the base value
    have hu : u.dimension.isTemperature = true := by rw [hdim, ht]
    simp only [if_true]
    constructor
    · intro h
      obtain ⟨kelvin, hkelvin, h⟩ := Except.bind_eq_ok_iff.1 h
      obtain ⟨scale, hscale, h⟩ := Except.bind_eq_ok_iff.1 h
      rw [Except.mapError_eq_ok_iff] at hscale h
      obtain ⟨hw, hxw⟩ := fromBase_eq_ok_iff.1 h
      refine ⟨hw, kelvin, by rw [Quantity.toBase, Quantity.dimension, if_pos hu, hkelvin], ?_⟩
      rw [Quantity.toBase_of_temperature ht hscale, hxw, sub_add_cancel,
        div_mul_cancel₀ _ scale.degree_ne_zero]
    · rintro ⟨hw, b, hb, hxb⟩
      obtain ⟨scale, hscale⟩ := Quantity.exists_scale_of_toBase ht hxb
      rw [Quantity.toBase_of_temperature ht hscale, Except.ok.injEq] at hxb
      rw [Quantity.toBase, Quantity.dimension, if_pos hu] at hb
      refine Except.bind_eq_ok_iff.2 ⟨b, hb, Except.bind_eq_ok_iff.2 ⟨scale, ?_, ?_⟩⟩
      · rw [Except.mapError_eq_ok_iff, hscale]
      · rw [Except.mapError_eq_ok_iff, fromBase_eq_ok_iff, ← hxb, mul_div_cancel_right₀ _ scale.degree_ne_zero]
        exact ⟨hw, (add_sub_cancel_right _ _).symm⟩

/-! ### Chains -/

/-- Convert a value from unit to unit along a list. -/
def convertAlong (value : Number) (source : UnitOfMeasure) :
    List UnitOfMeasure → Except (Failure UnitError) Number
  | [] => .ok value
  | target :: rest => do
    let value ← convertValue value source target
    convertAlong value target rest

/-- Every unit of a chain measures what the first one measures, the last one has a
factor if any step was made, and the base value at the end is that at the start. -/
theorem toBase_of_convertAlong {u last : UnitOfMeasure} {units : List UnitOfMeasure} {v x : Number}
    (h : convertAlong v u (units ++ [last]) = .ok x) :
    u.dimension = last.dimension ∧ last.factor ≠ 0 ∧
      ∃ b, (⟨v, u⟩ : Quantity).toBase = .ok b ∧ (⟨x, last⟩ : Quantity).toBase = .ok b := by
  induction units generalizing u v with
  | nil =>
    obtain ⟨y, hy, hx⟩ := Except.bind_eq_ok_iff.1 h
    obtain rfl : y = x := Except.ok.inj hx
    exact convertValue_eq_ok_iff.1 hy
  | cons w units ih =>
    obtain ⟨y, hy, hrest⟩ := Except.bind_eq_ok_iff.1 h
    obtain ⟨hdim, -, b, hv, hyb⟩ := convertValue_eq_ok_iff.1 hy
    obtain ⟨hdim', hlast, b', hyb', hx⟩ := ih hrest
    -- both steps see the same base value of the intermediate quantity
    obtain rfl : b = b' := Except.ok.inj (hyb.symm.trans hyb')
    exact ⟨hdim.trans hdim', hlast, b, hv, hx⟩

/-- **Conversion does not depend on the path**: a chain of conversions that succeeds
ends where the direct conversion ends, and a chain back to its first unit ends
where it began. -/
theorem convertValue_eq_of_convertAlong {u last : UnitOfMeasure} {units : List UnitOfMeasure}
    {v x : Number} (h : convertAlong v u (units ++ [last]) = .ok x) :
    convertValue v u last = .ok x ∧ (last = u → x = v) := by
  obtain ⟨hdim, hlast, b, hv, hx⟩ := toBase_of_convertAlong h
  refine ⟨convertValue_eq_ok_iff.2 ⟨hdim, hlast, b, hv, hx⟩, ?_⟩
  rintro rfl
  exact Quantity.toBase_injective hlast hx hv

/-- From 212 degrees Fahrenheit, by way of a millikelvin and a composite unit of
temperature, to Celsius and back. -/
theorem convertValue_eq_of_convertAlong_fahrenheit :
    let fahrenheit := UnitOfMeasure.named "fahrenheit" 1 .temperature (some (mkRat 45967 100))
    let millikelvin := UnitOfMeasure.named "millikelvin" (mkRat 1 1000) .temperature none
    let composite : UnitOfMeasure :=
      ⟨.ofList [("kelvin", 1), ("second", 1), ("minute", -1)], mkRat 1 60, .temperature, none⟩
    let celsius := UnitOfMeasure.named "celsius" 1 .temperature none
    convertAlong 212 fahrenheit [millikelvin, composite, celsius] = .ok 100 ∧
      convertValue 212 fahrenheit celsius = .ok 100 ∧
      ∀ x, convertAlong 212 fahrenheit [millikelvin, composite, celsius, fahrenheit] = .ok x →
        x = 212 := by
  intro fahrenheit millikelvin composite celsius
  have hchain : convertAlong 212 fahrenheit ([millikelvin, composite] ++ [celsius]) = .ok 100 := by
    decide +kernel
  refine ⟨hchain, (convertValue_eq_of_convertAlong hchain).1, fun x hx => ?_⟩
  have hreturn : convertAlong 212 fahrenheit ([millikelvin, composite, celsius] ++ [fahrenheit]) =
      .ok x := hx
  exact (convertValue_eq_of_convertAlong hreturn).2 rfl

end ExactUnits
