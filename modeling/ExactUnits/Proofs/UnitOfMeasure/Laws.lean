import ExactUnits.Proofs.UnitOfMeasure.Product

/-!
# The laws of the algebra of units

Name, factor and dimension of a unit move in step, so the laws of monomials and of rationals
together are laws of units.  Two of them hold of results, errors included: the order of two
factors does not matter, and the inverse is one over the unit, where name, factor and
dimension fail in the same order on both sides.  The offset is the exception.  Only the first
power keeps it, so laws that end in the unit itself are about units without one.

## Main definitions

* `IsPower u n w` — the unit `w` is the `n`-th power of `u`, part by part.

## Main results

* `mul_swap`, `inv_eq_one_div` — results that agree, errors included.
* `pow_eq_ok_iff_mulAll` — a power is the product of as many copies.
* `algebra_laws` — **the laws of the algebra of units.**
-/

namespace ExactUnits.UnitOfMeasure

variable {u v w : UnitOfMeasure} {m n : ℤ}

/-! ### Products and quotients -/

/-- The order of two factors does not matter, not even for the error. -/
theorem mul_swap (u v : UnitOfMeasure) : u.mul v = v.mul u := by
  unfold mul
  rw [Monomial.mul_swap u.name, Monomial.mul_swap u.dimension, mul_comm u.factor]

theorem eq_of_mul_div {p q : UnitOfMeasure} (hu : u.offset = none) (hmul : u.mul v = .ok p)
    (hdiv : p.div v = .ok q) : q = u := by
  obtain ⟨hname, hfactor, hdimension, -⟩ := mul_eq_ok_iff.1 hmul
  obtain ⟨hname', ⟨hne, hfactor'⟩, hdimension', hoffset⟩ := div_eq_ok_iff.1 hdiv
  have hquotient : q.factor = u.factor := by
    rw [hfactor', hfactor, mul_div_assoc, div_self hne, mul_one]
  have hnames := Monomial.eq_of_mul_div hname hname'
  have hdimensions := Monomial.eq_of_mul_div hdimension hdimension'
  cases u
  cases q
  simp_all

/-! ### Powers -/

/-- The unit `w` is the `n`-th power of the unit `u`, part by part, and has no offset. -/
structure IsPower (u : UnitOfMeasure) (n : ℤ) (w : UnitOfMeasure) : Prop where
  /-- The exponents of the name are multiples. -/
  name : ∀ x, w.name.exponent x = u.name.exponent x * n
  /-- The factor is the power of the factor. -/
  factor : w.factor = u.factor ^ n
  /-- The exponents of the dimension are multiples. -/
  dimension : ∀ x, w.dimension.exponent x = u.dimension.exponent x * n
  /-- There is no offset. -/
  offset : w.offset = none

namespace IsPower

theorem unique (h : IsPower u n v) (h' : IsPower u n w) : v = w := by
  have hname : v.name = w.name := Monomial.ext_exponent fun x => by rw [h.name, h'.name]
  have hdimension : v.dimension = w.dimension :=
    Monomial.ext_exponent fun x => by rw [h.dimension, h'.dimension]
  have hfactor := h.factor.trans h'.factor.symm
  have hoffset := h.offset.trans h'.offset.symm
  cases v
  cases w
  simp_all

/-- A power of a power is the power with the product of the exponents. -/
theorem trans (h : IsPower u m v) (h' : IsPower v n w) : IsPower u (m * n) w where
  name := fun x => by rw [h'.name, h.name, mul_assoc]
  factor := by rw [h'.factor, h.factor, zpow_mul]
  dimension := fun x => by rw [h'.dimension, h.dimension, mul_assoc]
  offset := h'.offset

/-- Any power of a unit without an offset is one part by part, the first included. -/
theorem of_pow (hu : u.offset = none) (h : u.pow n = .ok w) : IsPower u n w := by
  by_cases hn : n = 1
  · rw [pow, if_pos hn] at h
    obtain rfl := Except.ok.inj h
    subst hn
    exact ⟨fun x => (mul_one _).symm, (zpow_one _).symm, fun x => (mul_one _).symm, hu⟩
  · obtain ⟨hname, hfactor, hdimension, hoffset⟩ := (pow_eq_ok_iff hn).1 h
    exact ⟨(Monomial.pow_eq_ok_iff.1 hname).2, (Number.power_eq_ok_iff.1 hfactor).2.2,
      (Monomial.pow_eq_ok_iff.1 hdimension).2, hoffset⟩

end IsPower

/-- **A power is the product of as many copies**, within the limit of numbers. -/
theorem pow_eq_ok_iff_mulAll {n : ℕ} (hn : 2 ≤ n) (hlimit : n ≤ Number.powerLimit) :
    u.pow n = .ok w ↔ one.mulAll (List.replicate n u) = .ok w := by
  have hone : (n : ℤ) ≠ 1 := by omega
  have hfactor : Number.power u.factor n = .ok w.factor ↔ w.factor = 1 * u.factor ^ n := by
    rw [Number.power_eq_ok_iff, Int.natAbs_natCast, zpow_natCast, one_mul]
    simp [hlimit]
  rw [pow_eq_ok_iff hone, mulAll_eq_ok_iff rfl, List.map_replicate, List.map_replicate,
    List.map_replicate, List.prod_replicate, hfactor, Monomial.pow_eq_ok_iff_mulAll (by omega),
    Monomial.pow_eq_ok_iff_mulAll (by omega)]
  rfl

/-- **The inverse is one over the unit**, errors included. -/
theorem inv_eq_one_div (u : UnitOfMeasure) : u.inv = one.div u := by
  have hfactor : Number.power u.factor (-1) = Number.divide 1 u.factor := by
    show Number.divide 1 (Rat.pow u.factor 1) = _
    rw [Number.ratPow_eq, pow_one]
  unfold inv pow div
  rw [if_neg (by decide), Monomial.pow_neg_one_eq_inv, Monomial.pow_neg_one_eq_inv, hfactor]
  rfl

/-! ### The laws -/

/-- **The laws of the algebra of units.**  Products commute, errors included, and have no offset.
Of a unit without an offset, a factor can be divided out again, and the unit of pure numbers is
an identity on both sides.  A power within the limit succeeds exactly if the product of as many
copies does, and with the same result.  Of a unit without an offset, a power of a power is a
power, and so is the inverse of a power; and an inverse is one over the unit, errors included. -/
theorem algebra_laws (u v : UnitOfMeasure) :
    u.mul v = v.mul u ∧
    (∀ w, u.mul v = .ok w → w.offset = none) ∧
    (u.offset = none → ∀ p q, u.mul v = .ok p → p.div v = .ok q → q = u) ∧
    (u.offset = none → one.mul u = .ok u ∧ u.mul one = .ok u) ∧
    (∀ n : ℕ, 2 ≤ n → n ≤ 4096 → ∀ w,
      u.pow n = .ok w ↔ one.mulAll (List.replicate n u) = .ok w) ∧
    (u.offset = none → ∀ (m n : ℤ) p q w,
      u.pow m = .ok p → p.pow n = .ok q → u.pow (m * n) = .ok w → q = w) ∧
    (u.offset = none → ∀ (n : ℤ) p q w,
      u.pow n = .ok p → p.inv = .ok q → u.pow (-n) = .ok w → q = w) ∧
    u.inv = one.div u := by
  -- an inverse is a power, so the inverse of a power is a power of a power
  have hpow : u.offset = none → ∀ (m n : ℤ) p q w,
      u.pow m = .ok p → p.pow n = .ok q → u.pow (m * n) = .ok w → q = w := by
    intro hu m n p q w hp hq hw
    have hpower := IsPower.of_pow hu hp
    exact (hpower.trans (IsPower.of_pow hpower.offset hq)).unique (IsPower.of_pow hu hw)
  refine ⟨mul_swap u v, ?_, ?_, ?_, ?_, hpow, ?_, inv_eq_one_div u⟩
  · intro w hw
    exact (mul_eq_ok_iff.1 hw).2.2.2
  · intro hu p q hp hq
    exact eq_of_mul_div hu hp hq
  · intro hu
    exact ⟨one_mul_of_linear hu, mul_one_of_linear hu⟩
  · intro n hn hlimit w
    exact pow_eq_ok_iff_mulAll hn hlimit
  · intro hu n p q w hp hq hw
    rw [← mul_neg_one] at hw
    exact hpow hu n (-1) p q w hp hq hw

/-- Kilometres and hours: their product divided by the hour is the kilometre again, the square of the
kilometre is the product of two copies, and the inverse of the square is the power minus two. -/
theorem algebra_laws_speed :
    let kilometre := named "kilometre" 1000 (.atom "length") none
    let hour := named "hour" 3600 (.atom "time") none
    let product : UnitOfMeasure :=
      ⟨.ofList [("hour", 1), ("kilometre", 1)], 3600000, .ofList [("length", 1), ("time", 1)], none⟩
    let square : UnitOfMeasure :=
      ⟨.ofList [("kilometre", 2)], 1000000, .ofList [("length", 2)], none⟩
    let inverse : UnitOfMeasure :=
      ⟨.ofList [("kilometre", -2)], 1 / 1000000, .ofList [("length", -2)], none⟩
    kilometre.mul hour = .ok product ∧ product.offset = none ∧
      (∀ q, product.div hour = .ok q → q = kilometre) ∧ one.mul kilometre = .ok kilometre ∧
      one.mulAll (List.replicate 2 kilometre) = .ok square ∧
      kilometre.pow 2 = .ok square ∧ kilometre.pow (-2) = .ok inverse ∧
      (∀ q, square.pow (-1) = .ok q → q = inverse) ∧ (∀ q, square.inv = .ok q → q = inverse) := by
  intro kilometre hour product square inverse
  have hproduct : kilometre.mul hour = .ok product := by decide +kernel
  have hsquare : kilometre.pow 2 = .ok square := by decide +kernel
  have hinverse : kilometre.pow (-2) = .ok inverse := by decide +kernel
  obtain ⟨-, hoffset, hdiv, hone, hcopies, hpow, hinv, -⟩ := algebra_laws kilometre hour
  exact ⟨hproduct, hoffset product hproduct, fun q hq => hdiv rfl product q hproduct hq,
    (hone rfl).1, (hcopies 2 (by decide) (by decide) square).1 hsquare, hsquare, hinverse,
    fun q hq => hpow rfl 2 (-1) square q inverse hsquare hq hinverse,
    fun q hq => hinv rfl 2 square q inverse hsquare hq hinverse⟩

end ExactUnits.UnitOfMeasure
