import ExactUnits.Temperature
import ExactUnits.Vocabulary

/-!
# Conversion between units

Two units are convertible if they have the same dimension.  A value moves by the
ratio of their factors, and by way of kelvin if they are plain temperatures.

## Main definitions

* `convertValue` — a value moved from one unit to another.
* `Vocabulary.convert`, `Vocabulary.isCompatible` — the same between two texts.
-/

namespace ExactUnits

/-- A value of the unit `source` in the unit `target`. -/
def convertValue (value : Number) (source target : UnitOfMeasure) :
    Except (Failure UnitError) Number :=
  if !source.isCompatible target then
    .error (.showing [source.dimension, target.dimension]
      (.incompatible source.dimension.toText target.dimension.toText))
  else if source.dimension.isTemperature then do
    let kelvin ← toKelvin value source
    fromKelvin kelvin target
  else (target.fromBase (source.toBase value)).mapError .returned

namespace Vocabulary

/-- A value moved between the units that two texts stand for. -/
def convert (vocabulary : Vocabulary) (value : Number) (source target : String) :
    Except (Failure UnitError) Number := do
  let u ← (vocabulary.readUnit source).mapError .returned
  let v ← (vocabulary.readUnit target).mapError .returned
  convertValue value u v

/-- Whether the units that two texts stand for measure the same. -/
def isCompatible (vocabulary : Vocabulary) (source target : String) : Except UnitError Bool := do
  let u ← vocabulary.readUnit source
  let v ← vocabulary.readUnit target
  return u.isCompatible v

end Vocabulary

end ExactUnits
