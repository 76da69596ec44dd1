import ExactUnits.UnitOfMeasure

/-!
# Temperature scales

Temperatures are converted by way of kelvin.  The scale of a unit is told from
the end of its name, so a prefixed unit is on the scale of the unit without the
prefix.  A composite unit that measures temperature has no zero of its own and
counts as kelvin.

## Main definitions

* `TemperatureScale` — the scales, and `TemperatureScale.ofUnit`.
* `TemperatureScale.degree` — the size of a degree in kelvin.
* `TemperatureScale.origin` — how far a scale's zero is from absolute zero.
* `toKelvin`, `fromKelvin` — conversion by way of kelvin.
-/

namespace ExactUnits

/-- The scales of temperature. -/
inductive TemperatureScale where
  /-- Kelvin: absolute, and the measure of all others. -/
  | kelvin
  /-- Celsius: degrees of one kelvin from 273.15 kelvin. -/
  | celsius
  /-- Fahrenheit: degrees of 5/9 kelvin, 459.67 of them below its zero. -/
  | fahrenheit
  /-- Rankine: degrees of 5/9 kelvin from absolute zero. -/
  | rankine
  deriving DecidableEq, Repr

namespace TemperatureScale

/-! ### The scales -/

/-- The name at the end of the units on the scale. -/
def suffix : TemperatureScale → String
  | kelvin => "kelvin"
  | celsius => "celsius"
  | fahrenheit => "fahrenheit"
  | rankine => "rankine"

/-- All scales. -/
def all : List TemperatureScale := [kelvin, celsius, fahrenheit, rankine]

/-- The size of a degree in kelvin. -/
def degree : TemperatureScale → Number
  | kelvin | celsius => 1
  | fahrenheit | rankine => mkRat 5 9

/-- The distance of the zero from absolute zero, in degrees of the scale. -/
def publishedOrigin : TemperatureScale → Number
  | kelvin | rankine => 0
  | celsius => mkRat 27315 100
  | fahrenheit => mkRat 45967 100

/-- The distance of the zero of a unit from absolute zero; the offset of the unit
counts before that of the scale. -/
def origin (scale : TemperatureScale) (unit : UnitOfMeasure) : Number :=
  unit.offset.getD scale.publishedOrigin

/-! ### The scale of a unit -/

/-- The scale that a name ends in. -/
def ofName? (name : String) : Option TemperatureScale :=
  all.find? fun scale => scale.suffix.toList.isSuffixOf name.toList

/-- The scale of a unit: the one that its name ends in, or kelvin if it is
composite and has no offset. -/
def ofUnit (unit : UnitOfMeasure) : Except (Failure ScaleFault) TemperatureScale :=
  match unit.name.atom? with
  | some name =>
    match ofName? name with
    | some scale => .ok scale
    | none => .error (.returned (.unrecognised name))
  | none =>
    if unit.isAffine then .error (.showing [unit.name] (.composite unit.toText)) else .ok kelvin

end TemperatureScale

/-! ### By way of kelvin -/

/-- A temperature in kelvin. -/
def toKelvin (value : Number) (unit : UnitOfMeasure) : Except (Failure UnitError) Number := do
  let scale ← (TemperatureScale.ofUnit unit).mapError (Failure.map .scale)
  return (value * unit.factor + scale.origin unit) * scale.degree

/-- A temperature in kelvin, in another unit. -/
def fromKelvin (kelvin : Number) (unit : UnitOfMeasure) : Except (Failure UnitError) Number := do
  let scale ← (TemperatureScale.ofUnit unit).mapError (Failure.map .scale)
  (unit.fromBase (kelvin / scale.degree - scale.origin unit)).mapError .returned

end ExactUnits
