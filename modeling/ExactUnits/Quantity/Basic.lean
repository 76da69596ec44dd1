import ExactUnits.Conversion

/-!
# Quantities

A quantity is a number of units.  Quantities multiply and divide with their
units, unless one of the units is affine.

## Main definitions

* `Quantity` — the quantities, and `Quantity.pure`, a bare number.
* `Quantity.convertTo`, `Quantity.toBase` — conversion.
* `Quantity.mul`, `Quantity.div` — products and quotients.
* `Quantity.text` — the written form: the number, a space and the unit.
-/

namespace ExactUnits

/-- A number of units. -/
structure Quantity where
  /-- How many units. -/
  value : Number
  /-- The unit. -/
  unit : UnitOfMeasure
  deriving DecidableEq

namespace Quantity

/-- A bare number. -/
def pure (value : Number) : Quantity := ⟨value, .one⟩

/-- What the quantity measures. -/
def dimension (q : Quantity) : Dimension := q.unit.dimension

/-- Whether two quantities measure the same. -/
def isCompatible (p q : Quantity) : Bool := p.unit.isCompatible q.unit

/-! ### The written form -/

/-- The number, and the unit behind a space unless its name is empty. -/
def text (q : Quantity) : List Char :=
  if q.unit.name.isOne then Number.text q.value
  else Number.text q.value ++ ' ' :: UnitName.text q.unit.name

/-- The written form as a string. -/
def toText (q : Quantity) : String := String.ofList q.text

/-! ### Conversion -/

/-- The quantity in another unit. -/
def convertTo (q : Quantity) (target : UnitOfMeasure) : Except (Failure UnitError) Quantity := do
  let value ← convertValue q.value q.unit target
  return ⟨value, target⟩

/-- The value in the base unit of the dimension, which is kelvin for plain
temperatures. -/
def toBase (q : Quantity) : Except (Failure UnitError) Number :=
  if q.dimension.isTemperature then toKelvin q.value q.unit else .ok (q.unit.toBase q.value)

/-! ### Products and quotients -/

/-- Refuse to combine two quantities if one of them is affine; the first one that
is gets the blame. -/
def requireLinear (p q : Quantity) : Except (Failure UnitError) PUnit :=
  match [p.unit, q.unit].find? (·.isAffine) with
  | some unit =>
    .error (.showing [unit.name, p.unit.name, q.unit.name]
      (.composition unit.toText s!"({p.toText}) * ({q.toText})"))
  | none => .ok ()

/-- The product of two quantities. -/
def mul (p q : Quantity) : Except (Failure UnitError) Quantity := do
  requireLinear p q
  let unit ← (p.unit.mul q.unit).mapError .returned
  return ⟨p.value * q.value, unit⟩

/-- The quotient of two quantities.  The values are divided before the units. -/
def div (p q : Quantity) : Except (Failure UnitError) Quantity := do
  requireLinear p q
  let value ← (Number.divide p.value q.value).mapError fun e => .returned (.number e)
  let unit ← (p.unit.div q.unit).mapError .returned
  return ⟨value, unit⟩

end Quantity

end ExactUnits
