import ExactUnits.Error

/-!
# Units of measure

A unit has a canonical name, a factor relative to the base unit of its
dimension, and the dimension itself.  A unit of a temperature scale with a zero
of its own has an offset besides; such a unit is called affine.  Products,
quotients and powers act on name, factor and dimension alike and have no offset.

## Main definitions

* `UnitOfMeasure` — the units, with `UnitOfMeasure.named` and `UnitOfMeasure.one`.
* `UnitOfMeasure.mul`, `.div`, `.pow`, `.inv` — the algebra of units.
* `UnitOfMeasure.toBase`, `.fromBase` — linear conversion to and from the base unit.
-/

namespace ExactUnits

/-- A unit of measure. -/
structure UnitOfMeasure where
  /-- The canonical name, as in `metre` or `kilogram*metre/second^2`. -/
  name : UnitName
  /-- How many base units of the dimension make up the unit. -/
  factor : Number
  /-- What the unit measures. -/
  dimension : Dimension
  /-- How far the zero of the unit's scale is from absolute zero, in degrees. -/
  offset : Option Number
  deriving DecidableEq

namespace UnitOfMeasure

/-- A unit with a name of its own. -/
def named (name : String) (factor : Number) (dimension : Dimension) (offset : Option Number) :
    UnitOfMeasure := ⟨Monomial.atom name, factor, dimension, offset⟩

/-- The unit of pure numbers. -/
def one : UnitOfMeasure := ⟨Monomial.one, 1, Dimension.dimensionless, none⟩

/-- Whether the unit has an offset. -/
def isAffine (u : UnitOfMeasure) : Bool := u.offset.isSome

/-- Whether two units measure the same. -/
def isCompatible (u v : UnitOfMeasure) : Bool := u.dimension == v.dimension

/-- The text of a unit is that of its name. -/
def toText (u : UnitOfMeasure) : String := u.name.toText

/-! ### Linear conversion -/

/-- A value in the base unit, as if the unit had no offset. -/
def toBase (u : UnitOfMeasure) (value : Number) : Number := value * u.factor

/-- A value of the base unit in this unit, as if it had no offset. -/
def fromBase (u : UnitOfMeasure) (value : Number) : Except UnitError Number :=
  (Number.divide value u.factor).mapError .number

/-! ### Algebra -/

/-- The product of two units. -/
def mul (u v : UnitOfMeasure) : Except UnitError UnitOfMeasure := do
  let name ← (u.name.mul v.name).mapError .exponent
  let dimension ← (u.dimension.mul v.dimension).mapError .exponent
  return ⟨name, u.factor * v.factor, dimension, none⟩

/-- The quotient of two units.  The name is divided first, then the factor, then
the dimension. -/
def div (u v : UnitOfMeasure) : Except UnitError UnitOfMeasure := do
  let name ← (u.name.div v.name).mapError .exponent
  let factor ← (Number.divide u.factor v.factor).mapError .number
  let dimension ← (u.dimension.div v.dimension).mapError .exponent
  return ⟨name, factor, dimension, none⟩

/-- A power of a unit.  The first power is the unit itself, with its offset. -/
def pow (u : UnitOfMeasure) (n : Int) : Except UnitError UnitOfMeasure :=
  if n = 1 then .ok u
  else do
    let name ← (u.name.pow n).mapError .exponent
    let factor ← (Number.power u.factor n).mapError .number
    let dimension ← (u.dimension.pow n).mapError .exponent
    return ⟨name, factor, dimension, none⟩

/-- One over the unit. -/
def inv (u : UnitOfMeasure) : Except UnitError UnitOfMeasure := u.pow (-1)

end UnitOfMeasure

end ExactUnits
