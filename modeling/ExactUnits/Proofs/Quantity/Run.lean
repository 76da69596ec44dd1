import ExactUnits.Quantity.Reader
import ExactUnits.Proofs.Registry.Scale

/-!
# Runs of quantities

A run reads quantities with a registry, multiplies and divides them and converts them to
units that the registry reads.  However long it is, the unit of every quantity on the way
is one that the registry explains: no unit with an offset ever takes part in a product.  So
where temperatures without an offset are named after kelvin, base values multiply and divide
with the quantities, also where a product or a quotient cancels to a temperature.

## Main definitions

* `Registry.Reached` — the quantities of runs.

## Main results

* `Registry.known_of_reached` — the units of runs are known.
* `Registry.toBase_of_reached` — **base values multiply, divide and stay as they are.**
-/

namespace ExactUnits

/-! ### Operations that succeed -/

namespace Quantity

variable {p q s : Quantity}

theorem requireLinear_eq_ok_iff :
    requireLinear p q = .ok () ↔ p.unit.offset = none ∧ q.unit.offset = none := by
  rw [← UnitOfMeasure.isAffine_eq_false_iff, ← UnitOfMeasure.isAffine_eq_false_iff]
  unfold requireLinear
  cases hp : p.unit.isAffine <;> cases hq : q.unit.isAffine <;> simp [List.find?, hp, hq]

theorem mul_eq_ok_iff :
    p.mul q = .ok s ↔
      (p.unit.offset = none ∧ q.unit.offset = none) ∧ s.value = p.value * q.value ∧
        p.unit.mul q.unit = .ok s.unit := by
  unfold mul
  simp only [Except.bind_eq_ok_iff, Except.mapError_eq_ok_iff, Except.pure_eq_ok_iff,
    ← requireLinear_eq_ok_iff]
  constructor
  · rintro ⟨_, hlinear, unit, hunit, rfl⟩
    exact ⟨hlinear, rfl, hunit⟩
  · rintro ⟨hlinear, hvalue, hunit⟩
    refine ⟨(), hlinear, s.unit, hunit, ?_⟩
    rw [← hvalue]

theorem div_eq_ok_iff :
    p.div q = .ok s ↔
      (p.unit.offset = none ∧ q.unit.offset = none) ∧
        (q.value ≠ 0 ∧ s.value = p.value / q.value) ∧ p.unit.div q.unit = .ok s.unit := by
  unfold div
  simp only [Except.bind_eq_ok_iff, Except.mapError_eq_ok_iff, Except.pure_eq_ok_iff,
    Number.divide_eq_ok_iff, ← requireLinear_eq_ok_iff]
  constructor
  · rintro ⟨_, hlinear, value, ⟨hzero, rfl⟩, unit, hunit, rfl⟩
    exact ⟨hlinear, ⟨hzero, rfl⟩, hunit⟩
  · rintro ⟨hlinear, hvalue, hunit⟩
    exact ⟨(), hlinear, s.value, hvalue, s.unit, hunit, rfl⟩

theorem convertTo_eq_ok_iff {u : UnitOfMeasure} :
    p.convertTo u = .ok s ↔ convertValue p.value p.unit u = .ok s.value ∧ s.unit = u := by
  unfold convertTo
  simp only [Except.bind_eq_ok_iff, Except.pure_eq_ok_iff]
  constructor
  · rintro ⟨value, hvalue, rfl⟩
    exact ⟨hvalue, rfl⟩
  · rintro ⟨hvalue, rfl⟩
    exact ⟨s.value, hvalue, rfl⟩

/-- **A conversion keeps the base value.** -/
theorem toBase_of_convertTo {u : UnitOfMeasure} (h : p.convertTo u = .ok s) :
    ∃ b, p.toBase = .ok b ∧ s.toBase = .ok b := by
  obtain ⟨hvalue, rfl⟩ := convertTo_eq_ok_iff.1 h
  obtain ⟨-, -, hbase⟩ := convertValue_eq_ok_iff.1 hvalue
  exact hbase

end Quantity

/-! ### Runs -/

namespace Registry

/-- The quantities of the runs of a registry. -/
inductive Reached (r : Registry) : Quantity → Prop
  /-- A quantity that is read from a text. -/
  | read {text : String} {q : Quantity} (h : r.vocabulary.readQuantity text = .ok q) : Reached r q
  /-- A product. -/
  | mul {p q s : Quantity} (hp : Reached r p) (hq : Reached r q) (h : p.mul q = .ok s) :
      Reached r s
  /-- A quotient. -/
  | div {p q s : Quantity} (hp : Reached r p) (hq : Reached r q) (h : p.div q = .ok s) :
      Reached r s
  /-- A quantity in another unit, which is read from a text. -/
  | convert {p s : Quantity} {text : String} {u : UnitOfMeasure} (hp : Reached r p)
      (hu : r.readUnit text = .ok u) (h : p.convertTo u = .ok s) : Reached r s

variable {definitions : List Definition} {aliases : NameMap String} {r : Registry}

theorem known_of_readQuantity (h : build definitions aliases = .ok r) {text : String}
    {q : Quantity} (hq : r.vocabulary.readQuantity text = .ok q) : Known definitions q.unit := by
  have hchars : ∀ {chars u}, r.vocabulary.readChars chars = .ok u → Known definitions u := by
    intro chars u hu
    exact (wellNamed_of_build h).readingInvariant.readNormal (fun _ _ => known_of_table h) hu
  unfold Vocabulary.readQuantity at hq
  obtain ⟨parts, -, hq⟩ := Except.bind_eq_ok_iff.1 hq
  obtain ⟨value, -, hq⟩ := Except.bind_eq_ok_iff.1 hq
  obtain ⟨unit, hunit, hq⟩ := Except.bind_eq_ok_iff.1 hq
  rw [Except.mapError_eq_ok_iff] at hunit
  obtain rfl := Except.pure_eq_ok_iff.1 hq
  -- nothing to read is the unit one, and all else is read as a text
  unfold Vocabulary.readUnitPart at hunit
  split at hunit
  · obtain rfl := Except.ok.inj hunit
    exact .inr .one
  · exact hchars hunit
  · exact hchars hunit

/-- **The units of runs are known.** -/
theorem known_of_reached (h : build definitions aliases = .ok r) {q : Quantity}
    (hq : r.Reached q) : Known definitions q.unit := by
  have hnamed := wellNamed_of_build h
  induction hq with
  | read hread => exact known_of_readQuantity h hread
  | mul _ _ hmul ihp ihq =>
    obtain ⟨⟨hp, hq⟩, -, hunit⟩ := Quantity.mul_eq_ok_iff.1 hmul
    have hcomposed := (ihp.composedOf hnamed hp).mul hnamed.unitNamed_factor_ne_zero
      (ihq.composedOf hnamed hq) hunit
    exact .inr hcomposed
  | div _ _ hdiv ihp ihq =>
    obtain ⟨⟨hp, hq⟩, -, hunit⟩ := Quantity.div_eq_ok_iff.1 hdiv
    have hcomposed := (ihp.composedOf hnamed hp).div hnamed.unitNamed_factor_ne_zero
      (ihq.composedOf hnamed hq) hunit
    exact .inr hcomposed
  | convert _ hread hconvert _ =>
    obtain ⟨-, rfl⟩ := Quantity.convertTo_eq_ok_iff.1 hconvert
    exact known_of_supplies h (.inl ⟨_, hread⟩)

/-- **Base values multiply, divide and stay as they are.**  Let temperatures have an offset or
be named after kelvin, as the standard ones are.  A product of quantities that are reached has
the product of their base values, a quotient has the quotient, and a conversion keeps the base
value; and all of these base values exist. -/
theorem toBase_of_reached :
    NamedKelvin Standard.definitions ∧
      ∀ definitions aliases r, build definitions aliases = .ok r → NamedKelvin definitions →
        ∀ p q, r.Reached p → r.Reached q →
          (∀ s, p.mul q = .ok s → ∃ x y, p.toBase = .ok x ∧ q.toBase = .ok y ∧
            s.toBase = .ok (x * y)) ∧
          (∀ s, p.div q = .ok s → ∃ x y, p.toBase = .ok x ∧ q.toBase = .ok y ∧ y ≠ 0 ∧
            s.toBase = .ok (x / y)) ∧
          ∀ u s, p.convertTo u = .ok s → ∃ b, p.toBase = .ok b ∧ s.toBase = .ok b := by
  refine ⟨namedKelvin_standard, ?_⟩
  intro definitions aliases r h hkelvin p q hp hq
  have hnamed := wellNamed_of_build h
  -- without an offset, every quantity on the way is measured by the factor of its unit
  have hbase : ∀ {s}, r.Reached s → s.unit.offset = none →
      s.toBase = .ok (s.value * s.unit.factor) := by
    intro s hs hoffset
    exact (known_of_reached h hs).toBase_of_namedKelvin hnamed hkelvin hoffset s.value
  refine ⟨?_, ?_, ?_⟩
  · intro s hmul
    obtain ⟨⟨hoffset, hoffset'⟩, hvalue, hunit⟩ := Quantity.mul_eq_ok_iff.1 hmul
    obtain ⟨-, hfactor, -, hlinear⟩ := UnitOfMeasure.mul_eq_ok_iff.1 hunit
    refine ⟨_, _, hbase hp hoffset, hbase hq hoffset', ?_⟩
    rw [hbase (.mul hp hq hmul) hlinear, hvalue, hfactor, mul_mul_mul_comm]
  · intro s hdiv
    obtain ⟨⟨hoffset, hoffset'⟩, ⟨hzero, hvalue⟩, hunit⟩ := Quantity.div_eq_ok_iff.1 hdiv
    obtain ⟨-, ⟨hzero', hfactor⟩, -, hlinear⟩ := UnitOfMeasure.div_eq_ok_iff.1 hunit
    refine ⟨_, _, hbase hp hoffset, hbase hq hoffset', mul_ne_zero hzero hzero', ?_⟩
    rw [hbase (.div hp hq hdiv) hlinear, hvalue, hfactor, div_mul_div_comm]
  · intro u s hconvert
    exact Quantity.toBase_of_convertTo hconvert

/-- With kelvin, Celsius, seconds and minutes, 300 kelvin seconds over two minutes are a
temperature, and its base value is 300/120. -/
theorem toBase_of_reached_quotient :
    let kelvin : Definition := ⟨"kelvin", ["K"], [], 1, none, .temperature, .none⟩
    let celsius : Definition :=
      ⟨"celsius", [], [], 1, some (mkRat 27315 100), .temperature, .none⟩
    let second : Definition := ⟨"second", ["s"], [], 1, none, .base "time", .none⟩
    let minute : Definition := ⟨"minute", ["min"], [], 60, none, .base "time", .none⟩
    ∃ r p q s x y, build [kelvin, celsius, second, minute] .empty = .ok r ∧
      r.vocabulary.readQuantity "300 K*s" = .ok p ∧ r.vocabulary.readQuantity "2 min" = .ok q ∧
      p.div q = .ok s ∧ s.dimension.isTemperature = true ∧
      p.toBase = .ok x ∧ q.toBase = .ok y ∧ y ≠ 0 ∧ s.toBase = .ok (x / y) := by
  intro kelvin celsius second minute
  let p : Quantity := ⟨300, ⟨.ofList [("kelvin", 1), ("second", 1)], 1,
    .ofList [("temperature", 1), ("time", 1)], none⟩⟩
  let q : Quantity := ⟨2, minute.unit⟩
  let s : Quantity := ⟨150, ⟨.ofList [("kelvin", 1), ("minute", -1), ("second", 1)], mkRat 1 60,
    .temperature, none⟩⟩
  have hread : (build [kelvin, celsius, second, minute] .empty >>= fun r =>
      r.vocabulary.readQuantity "300 K*s") = .ok p := by decide +kernel
  have hread' : (build [kelvin, celsius, second, minute] .empty >>= fun r =>
      r.vocabulary.readQuantity "2 min") = .ok q := by decide +kernel
  obtain ⟨r, hr, hp⟩ := Except.bind_eq_ok_iff.1 hread
  obtain ⟨r', hr', hq⟩ := Except.bind_eq_ok_iff.1 hread'
  obtain rfl : r = r' := Except.ok.inj (hr.symm.trans hr')
  have hkelvin : NamedKelvin [kelvin, celsius, second, minute] := by
    unfold NamedKelvin
    decide +kernel
  have hdiv : p.div q = .ok s := by decide +kernel
  obtain ⟨-, hquotient, -⟩ :=
    toBase_of_reached.2 _ _ r hr hkelvin p q (.read hp) (.read hq)
  obtain ⟨x, y, hx, hy, hzero, hs⟩ := hquotient s hdiv
  exact ⟨r, p, q, s, x, y, hr, hp, hq, hdiv, by decide +kernel, hx, hy, hzero, hs⟩

end Registry

end ExactUnits
