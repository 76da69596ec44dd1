import ExactUnits.Proofs.Monomial.Group
import ExactUnits.Proofs.UnitOfMeasure.Overflow

/-!
# Products of several units

A product of several units is computed from left to right, and may overflow on the way.
Where it does not, it does not matter how the factors are grouped; and an exponent that
does not fit is all that can go wrong.

## Main definitions

* `UnitOfMeasure.mulAll` — a unit multiplied by the units of a list.

## Main results

* `UnitOfMeasure.mulAll_eq_ok_iff` — several units are multiplied part by part.
* `UnitOfMeasure.mul_of_mulAll` — **products can be regrouped where they exist.**
* `UnitOfMeasure.mulAll_cases` — a product exists, or an exponent does not fit.
-/

namespace ExactUnits

namespace UnitOfMeasure

/-! ### The unit of products -/

variable {u v w : UnitOfMeasure}

theorem one_mul_of_linear (h : u.offset = none) : one.mul u = .ok u := by
  refine mul_eq_ok_iff.2 ⟨Monomial.mul_eq_ok_iff.2 fun x => ?_, (one_mul u.factor).symm,
    Monomial.mul_eq_ok_iff.2 fun x => ?_, h⟩
  · exact (zero_add _).symm
  · exact (zero_add _).symm

theorem mul_one_of_linear (h : u.offset = none) : u.mul one = .ok u := by
  refine mul_eq_ok_iff.2 ⟨Monomial.mul_eq_ok_iff.2 fun x => ?_, (mul_one u.factor).symm,
    Monomial.mul_eq_ok_iff.2 fun x => ?_, h⟩
  · exact (add_zero _).symm
  · exact (add_zero _).symm

theorem div_one_of_linear (h : u.offset = none) : u.div one = .ok u := by
  have hfits : ∀ x, Exponent.Fits (-Monomial.one.exponent x) := by
    intro x
    rw [Monomial.exponent_one]
    decide
  refine div_eq_ok_iff.2 ⟨Monomial.div_eq_ok_iff.2 ⟨hfits, fun x => ?_⟩,
    ⟨one_ne_zero, (div_one u.factor).symm⟩, Monomial.div_eq_ok_iff.2 ⟨hfits, fun x => ?_⟩, h⟩
  · exact (sub_zero _).symm
  · exact (sub_zero _).symm

/-! ### Several units -/

/-- Multiply a unit by the units of a list, from left to right. -/
def mulAll (u : UnitOfMeasure) (units : List UnitOfMeasure) : Except UnitError UnitOfMeasure :=
  units.foldlM mul u

theorem mulAll_cons (u v : UnitOfMeasure) (units : List UnitOfMeasure) :
    u.mulAll (v :: units) = u.mul v >>= (·.mulAll units) := List.foldlM_cons ..

theorem mulAll_singleton (u v : UnitOfMeasure) : u.mulAll [v] = u.mul v := by
  rw [mulAll_cons]
  exact bind_pure _

theorem mulAll_append (u : UnitOfMeasure) (units units' : List UnitOfMeasure) :
    u.mulAll (units ++ units') = u.mulAll units >>= (·.mulAll units') := List.foldlM_append ..

/-- **Several units are multiplied part by part.** -/
theorem mulAll_eq_ok_iff {units : List UnitOfMeasure} (hu : u.offset = none) :
    u.mulAll units = .ok w ↔
      u.name.mulAll (units.map name) = .ok w.name ∧
        w.factor = u.factor * (units.map factor).prod ∧
        u.dimension.mulAll (units.map dimension) = .ok w.dimension ∧ w.offset = none := by
  induction units generalizing u with
  | nil =>
    obtain ⟨name, factor, dimension, offset⟩ := u
    obtain ⟨name', factor', dimension', offset'⟩ := w
    obtain rfl : offset = none := hu
    simp [mulAll, Monomial.mulAll_nil, eq_comm]
  | cons v units ih =>
    rw [mulAll_cons, List.map_cons, List.map_cons, List.map_cons, List.prod_cons,
      Monomial.mulAll_cons, Monomial.mulAll_cons, Except.bind_eq_ok_iff, Except.bind_eq_ok_iff,
      Except.bind_eq_ok_iff, ← mul_assoc]
    constructor
    · rintro ⟨next, hnext, h⟩
      obtain ⟨hname, hfactor, hdimension, hoffset⟩ := mul_eq_ok_iff.1 hnext
      obtain ⟨hnames, hfactors, hdimensions, hlinear⟩ := (ih hoffset).1 h
      exact ⟨⟨_, hname, hnames⟩, hfactor ▸ hfactors, ⟨_, hdimension, hdimensions⟩, hlinear⟩
    · rintro ⟨⟨name, hname, hnames⟩, hfactors, ⟨dimension, hdimension, hdimensions⟩, hlinear⟩
      refine ⟨⟨name, u.factor * v.factor, dimension, none⟩, ?_, ?_⟩
      · exact mul_eq_ok_iff.2 ⟨hname, rfl, hdimension, rfl⟩
      · exact (ih rfl).2 ⟨hnames, hfactors, hdimensions, hlinear⟩

/-- A product exists, or an exponent does not fit. -/
theorem mulAll_cases (u : UnitOfMeasure) (units : List UnitOfMeasure) :
    (∃ w, u.mulAll units = .ok w) ∨
      ∃ name, u.mulAll units = .error (.exponent (.outOfRange name)) := by
  cases h : u.mulAll units with
  | ok w => exact .inl ⟨w, rfl⟩
  | error e =>
    obtain ⟨name, rfl⟩ := Except.error_of_foldlM (fun e => ∃ name, e = .exponent (.outOfRange name))
      (fun _ _ _ _ => exists_of_mul_eq_error) h
    exact .inr ⟨name, rfl⟩

/-- No product has an offset. -/
theorem offset_of_mulAll {units : List UnitOfMeasure} (hu : u.offset = none)
    (h : u.mulAll units = .ok w) : w.offset = none :=
  Except.foldlM_induction (·.offset = none) hu
    (fun _ _ _ _ _ hmul => (mul_eq_ok_iff.1 hmul).2.2.2) h

/-- Three factors can be regrouped. -/
theorem mul_of_mul_mul {p q p' q' : UnitOfMeasure} (hpq : u.mul p = .ok q) (hp : p.mul v = .ok p')
    (hq : q.mul v = .ok q') : u.mul p' = .ok q' := by
  obtain ⟨hname, hfactor, hdimension, -⟩ := mul_eq_ok_iff.1 hpq
  obtain ⟨hname₁, hfactor₁, hdimension₁, -⟩ := mul_eq_ok_iff.1 hp
  obtain ⟨hname₂, hfactor₂, hdimension₂, hoffset⟩ := mul_eq_ok_iff.1 hq
  refine mul_eq_ok_iff.2 ⟨Monomial.mul_of_mul_mul hname hname₁ hname₂, ?_,
    Monomial.mul_of_mul_mul hdimension hdimension₁ hdimension₂, hoffset⟩
  rw [hfactor₂, hfactor, hfactor₁, mul_assoc]

/-- **Products can be regrouped where they exist.** -/
theorem mul_of_mulAll {units : List UnitOfMeasure} {p q p' q' : UnitOfMeasure}
    (hpq : u.mul p = .ok q) (hp : p.mulAll units = .ok p') (hq : q.mulAll units = .ok q') :
    u.mul p' = .ok q' := by
  induction units generalizing p q with
  | nil =>
    obtain rfl := Except.ok.inj hp
    obtain rfl := Except.ok.inj hq
    exact hpq
  | cons v units ih =>
    rw [mulAll_cons, Except.bind_eq_ok_iff] at hp hq
    obtain ⟨p₁, hp₁, hp⟩ := hp
    obtain ⟨q₁, hq₁, hq⟩ := hq
    exact ih (mul_of_mul_mul hpq hp₁ hq₁) hp hq

end UnitOfMeasure

end ExactUnits
