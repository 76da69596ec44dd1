import ExactUnits.Definition
import ExactUnits.Number.Literal
import ExactUnits.Number.Shortest

/-!
# Raw records of definitions

A loader of definition files hands over records: a factor and an offset may be
an integer, a text or a floating-point number, and a dimension a name or a map
of exponents.  A record becomes a definition if nothing is missing or malformed;
a floating-point number is always refused, since it may not be what was meant.

## Main definitions

* `Amount` — a factor or an offset as written, and `Amount.toNumber`.
* `DimensionEntry` — a dimension as written, and `DimensionEntry.toDimension`.
* `Record` — a record, and `Definition.ofRecord`.
-/

namespace ExactUnits

/-- A factor or an offset as written in a record. -/
inductive Amount where
  /-- An integer of 64 bits. -/
  | integer (n : Int64)
  /-- A text, which is read as a number. -/
  | text (text : String)
  /-- A floating-point number, which is refused. -/
  | float (x : Float)

/-- The number that was written. -/
def Amount.toNumber : Amount → Except (Failure DefinitionFault) Number
  | integer n => .ok (n.toInt : Rat)
  | text t => (Number.read t).mapError (Failure.map (.badAmount t))
  | float x => .error (.returned (.inexactAmount (String.ofList (floatText x))))

/-- A dimension as written in a record. -/
inductive DimensionEntry where
  /-- The name of a base dimension, or that of pure numbers. -/
  | name (name : String)
  /-- The exponents of base dimensions, zeros included. -/
  | map (exponents : NameMap Exponent)
  deriving DecidableEq

/-- The dimension that was written.  The empty name and `dimensionless` stand for
pure numbers. -/
def DimensionEntry.toDimension : DimensionEntry → Dimension
  | name n => if n = "" ∨ n = "dimensionless" then .dimensionless else .base n
  | map exponents => Monomial.ofMap exponents

/-- A definition as a loader hands it over. -/
structure Record where
  /-- The canonical name. -/
  name : String
  /-- The symbols. -/
  symbols : List String
  /-- Other names. -/
  aliases : List String
  /-- The factor, if there is one. -/
  factor : Option Amount
  /-- The offset, if there is one. -/
  offset : Option Amount
  /-- The dimension, if there is one. -/
  dimension : Option DimensionEntry
  /-- The prefix family, if there is one. -/
  family : Option PrefixFamily
  /-- The file that the record comes from, if it is known. -/
  source : Option String

namespace Definition

/-- The definition in a record, with the first thing that is missing or
malformed: the factor, then the dimension, then the offset. -/
def ofRecordFields (r : Record) : Except (Failure DefinitionFault) Definition := do
  let factor ← match r.factor with
    | some amount => amount.toNumber
    | none => .error (.returned .missingFactor)
  let dimension ← match r.dimension with
    | some entry => .ok entry.toDimension
    | none => .error (.returned .missingDimension)
  let offset ← match r.offset with
    | some amount => amount.toNumber.map some
    | none => .ok none
  return {
    name := r.name, symbols := r.symbols, aliases := r.aliases, factor, offset, dimension,
    family := r.family.getD .none }

/-- The file that a record's errors name. -/
def sourceOf (r : Record) : String := r.source.getD inlineSource

/-- The valid definition in a record. -/
def ofRecord (r : Record) : Except (Failure UnitError) Definition := do
  let d ← (ofRecordFields r).mapError (Failure.map (.definition r.name (sourceOf r)))
  (d.validate (sourceOf r)).mapError .returned
  return d

end Definition

end ExactUnits
