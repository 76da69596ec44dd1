import ExactUnits.Proofs.UnitOfMeasure.Algebra
import ExactUnits.Proofs.Vocabulary.Reading

/-!
# Units that are composed of base units

Given a unit for every name, a canonical name spells out a factor, which is the
product of the powers of the named factors, and a dimension, whose exponents are the
sums of the multiples of the named ones.  A unit without an offset whose factor and
dimension are those that its name spells is composed of the named units; the algebra
of units keeps this, whatever cancels on the way.

## Main definitions

* `UnitName.factor`, `UnitName.dimensionExponent` — what a name spells.
* `ComposedOf base linear u` — `u` is composed of the units that `base` gives to its
  names, all of which satisfy `linear`.

## Main results

* `ComposedOf.eq_of_name_eq` — **a composed unit is determined by its name.**
* `ComposedOf.mul`, `ComposedOf.div`, `ComposedOf.pow` — the algebra keeps composition.
-/

namespace ExactUnits

/-! ### What a name spells -/

namespace UnitName

variable (base : String → UnitOfMeasure)

/-- The product of the named factors, each raised to its exponent. -/
noncomputable def factor (name : UnitName) : ℚ :=
  name.toFinsupp.prod fun n e => (base n).factor ^ e

/-- The exponent of a base dimension in the product of the named dimensions. -/
noncomputable def dimensionExponent (name : UnitName) (x : String) : ℤ :=
  name.toFinsupp.sum fun n e => e * (base n).dimension.exponent x

theorem factor_eq_prod (name : UnitName) :
    factor base name = (name.factors.map fun p => (base p.1).factor ^ p.2.toInt).prod :=
  (name.prod_factors fun n e => (base n).factor ^ e).symm

theorem dimensionExponent_eq_sum (name : UnitName) (x : String) :
    dimensionExponent base name x =
      (name.factors.map fun p => p.2.toInt * (base p.1).dimension.exponent x).sum :=
  (name.sum_factors fun n e => e * (base n).dimension.exponent x).symm

@[simp] theorem factor_one : factor base Monomial.one = 1 := by simp [factor]

@[simp] theorem dimensionExponent_one (x : String) : dimensionExponent base Monomial.one x = 0 := by
  simp [dimensionExponent]

@[simp] theorem factor_atom (n : String) : factor base (Monomial.atom n) = (base n).factor := by
  simp [factor]

@[simp] theorem dimensionExponent_atom (n x : String) :
    dimensionExponent base (Monomial.atom n) x = (base n).dimension.exponent x := by
  simp [dimensionExponent]

variable {base} {a b c : UnitName}

theorem factor_of_mul (hbase : ∀ n, (base n).factor ≠ 0) (h : a.mul b = .ok c) :
    factor base c = factor base a * factor base b := by
  rw [factor, Monomial.toFinsupp_of_mul h]
  exact Finsupp.prod_add_index' (fun n => zpow_zero _) fun n => zpow_add₀ (hbase n)

theorem dimensionExponent_of_mul (h : a.mul b = .ok c) (x : String) :
    dimensionExponent base c x = dimensionExponent base a x + dimensionExponent base b x := by
  rw [dimensionExponent, Monomial.toFinsupp_of_mul h]
  exact Finsupp.sum_add_index' (fun n => zero_mul _) fun n d e => add_mul d e _

theorem factor_ne_zero (hbase : ∀ n, (base n).factor ≠ 0) (a : UnitName) : factor base a ≠ 0 := by
  rw [factor, Finsupp.prod]
  exact Finset.prod_ne_zero_iff.2 fun n _ => zpow_ne_zero _ (hbase n)

/-- The dividend is the product of the quotient and the divisor. -/
private theorem mul_of_div (h : a.div b = .ok c) : c.mul b = .ok a := by
  refine Monomial.mul_eq_ok_iff.2 fun x => ?_
  rw [(Monomial.div_eq_ok_iff.1 h).2 x]
  ring

theorem factor_of_div (hbase : ∀ n, (base n).factor ≠ 0) (h : a.div b = .ok c) :
    factor base c = factor base a / factor base b := by
  rw [eq_div_iff (factor_ne_zero hbase b), factor_of_mul hbase (mul_of_div h)]

theorem dimensionExponent_of_div (h : a.div b = .ok c) (x : String) :
    dimensionExponent base c x = dimensionExponent base a x - dimensionExponent base b x := by
  rw [dimensionExponent_of_mul (mul_of_div h), add_sub_cancel_right]

private theorem support_of_pow {n : ℤ} (h : a.pow n = .ok c) :
    c.toFinsupp.support ⊆ a.toFinsupp.support := by
  rw [Monomial.toFinsupp_of_pow h]
  exact Finsupp.support_smul

theorem factor_of_pow {n : ℤ} (h : a.pow n = .ok c) : factor base c = factor base a ^ n := by
  have hzero : ∀ m ∈ a.toFinsupp.support, (base m).factor ^ (0 : ℤ) = 1 := fun m _ => zpow_zero _
  rw [factor, Finsupp.prod_of_support_subset _ (support_of_pow h) _ hzero, factor, Finsupp.prod,
    ← Finset.prod_zpow]
  refine Finset.prod_congr rfl fun m _ => ?_
  rw [Monomial.toFinsupp_apply, (Monomial.pow_eq_ok_iff.1 h).2, Monomial.toFinsupp_apply, zpow_mul]

theorem dimensionExponent_of_pow {n : ℤ} (h : a.pow n = .ok c) (x : String) :
    dimensionExponent base c x = dimensionExponent base a x * n := by
  have hzero : ∀ m ∈ a.toFinsupp.support, 0 * (base m).dimension.exponent x = 0 :=
    fun m _ => zero_mul _
  rw [dimensionExponent, Finsupp.sum_of_support_subset _ (support_of_pow h) _ hzero,
    dimensionExponent, Finsupp.sum, Finset.sum_mul]
  refine Finset.sum_congr rfl fun m _ => ?_
  rw [Monomial.toFinsupp_apply, (Monomial.pow_eq_ok_iff.1 h).2, Monomial.toFinsupp_apply]
  ring

end UnitName

/-! ### Composed units -/

/-- The unit has no offset, its names satisfy `linear`, and its factor and dimension are
those that its name spells. -/
structure ComposedOf (base : String → UnitOfMeasure) (linear : String → Prop) (u : UnitOfMeasure) :
    Prop where
  /-- The unit has no zero of its own. -/
  offset : u.offset = none
  /-- The names that occur. -/
  names : ∀ n, u.name.exponent n ≠ 0 → linear n
  /-- The factor is the product of the named ones. -/
  factor : u.factor = UnitName.factor base u.name
  /-- The dimension is the product of the named ones. -/
  dimension : ∀ x, u.dimension.exponent x = UnitName.dimensionExponent base u.name x

namespace ComposedOf

variable {base : String → UnitOfMeasure} {linear : String → Prop} {u v w : UnitOfMeasure}

/-- **A composed unit is determined by its name.** -/
theorem eq_of_name_eq (hu : ComposedOf base linear u) (hv : ComposedOf base linear v)
    (h : u.name = v.name) : u = v := by
  have hfactor : u.factor = v.factor := by rw [hu.factor, hv.factor, h]
  have hdimension : u.dimension = v.dimension :=
    Monomial.ext_exponent fun x => by rw [hu.dimension, hv.dimension, h]
  have hoffset : u.offset = v.offset := hu.offset.trans hv.offset.symm
  cases u
  cases v
  simp_all

theorem one : ComposedOf base linear .one where
  offset := rfl
  names := fun n h => absurd (Monomial.exponent_one n) h
  factor := (UnitName.factor_one base).symm
  dimension := fun x => (UnitName.dimensionExponent_one base x).symm

theorem mul (hbase : ∀ n, (base n).factor ≠ 0) (hu : ComposedOf base linear u)
    (hv : ComposedOf base linear v) (h : u.mul v = .ok w) : ComposedOf base linear w := by
  obtain ⟨hname, hfactor, hdimension, hoffset⟩ := UnitOfMeasure.mul_eq_ok_iff.1 h
  refine ⟨hoffset, fun n hn => ?_, ?_, fun x => ?_⟩
  · rw [Monomial.mul_eq_ok_iff.1 hname] at hn
    by_cases hun : u.name.exponent n = 0
    · exact hv.names n fun hvn => hn (by rw [hun, hvn, add_zero])
    · exact hu.names n hun
  · rw [hfactor, UnitName.factor_of_mul hbase hname, hu.factor, hv.factor]
  · rw [Monomial.mul_eq_ok_iff.1 hdimension, UnitName.dimensionExponent_of_mul hname,
      hu.dimension, hv.dimension]

theorem div (hbase : ∀ n, (base n).factor ≠ 0) (hu : ComposedOf base linear u)
    (hv : ComposedOf base linear v) (h : u.div v = .ok w) : ComposedOf base linear w := by
  obtain ⟨hname, ⟨-, hfactor⟩, hdimension, hoffset⟩ := UnitOfMeasure.div_eq_ok_iff.1 h
  refine ⟨hoffset, fun n hn => ?_, ?_, fun x => ?_⟩
  · rw [(Monomial.div_eq_ok_iff.1 hname).2] at hn
    by_cases hun : u.name.exponent n = 0
    · exact hv.names n fun hvn => hn (by rw [hun, hvn, sub_zero])
    · exact hu.names n hun
  · rw [hfactor, UnitName.factor_of_div hbase hname, hu.factor, hv.factor]
  · rw [(Monomial.div_eq_ok_iff.1 hdimension).2, UnitName.dimensionExponent_of_div hname,
      hu.dimension, hv.dimension]

theorem pow {n : ℤ} (hu : ComposedOf base linear u) (h : u.pow n = .ok w) :
    ComposedOf base linear w := by
  by_cases hn : n = 1
  · rw [UnitOfMeasure.pow, if_pos hn] at h
    obtain rfl := Except.ok.inj h
    exact hu
  obtain ⟨hname, hfactor, hdimension, hoffset⟩ := (UnitOfMeasure.pow_eq_ok_iff hn).1 h
  refine ⟨hoffset, fun m hm => hu.names m fun hum => hm ?_, ?_, fun x => ?_⟩
  · rw [(Monomial.pow_eq_ok_iff.1 hname).2, hum, zero_mul]
  · rw [(Number.power_eq_ok_iff.1 hfactor).2.2, UnitName.factor_of_pow hname, hu.factor]
  · rw [(Monomial.pow_eq_ok_iff.1 hdimension).2, UnitName.dimensionExponent_of_pow hname,
      hu.dimension]

end ComposedOf

end ExactUnits
