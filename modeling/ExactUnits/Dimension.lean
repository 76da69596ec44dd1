import ExactUnits.Monomial.Text

/-!
# Dimensions and unit names

A dimension is a product of powers of base dimensions, such as force, which is
`length*mass/time^2`.  The canonical name of a unit is a product of powers of
names of units, such as `kilogram*metre/second^2`; so the order in which a unit
is composed does not matter.

## Main definitions

* `Dimension`, `Dimension.base` — dimensions and the base dimensions.
* `Dimension.commonName?` — the name of a derived dimension that has one.
* `UnitName`, `UnitName.text` — the canonical names of units.
-/

namespace ExactUnits

/-- A dimension is a product of powers of base dimensions. -/
abbrev Dimension := Monomial

namespace Dimension

/-! ### Base dimensions -/

/-- The base dimension of a name. -/
def base (name : String) : Dimension := Monomial.atom name

/-- The dimension of pure numbers. -/
def dimensionless : Dimension := Monomial.one

/-- The base dimension of temperatures. -/
def temperature : Dimension := base "temperature"

/-- A plain temperature, which scales with different zeros can measure. -/
def isTemperature (d : Dimension) : Bool := d == temperature

/-! ### Names and texts -/

/-- The exponents of the dimensions that have a common name, in the order of the
base dimensions' names. -/
def commonNames : List (List (String × Int) × String) :=
  [([], "dimensionless"),
    ([("length", 1), ("time", -1)], "velocity"),
    ([("length", 1), ("time", -2)], "acceleration"),
    ([("length", 1), ("mass", 1), ("time", -2)], "force"),
    ([("length", 2), ("mass", 1), ("time", -2)], "energy"),
    ([("length", 2), ("mass", 1), ("time", -3)], "power"),
    ([("length", -1), ("mass", 1), ("time", -2)], "pressure"),
    ([("length", 2)], "area"),
    ([("length", 3)], "volume"),
    ([("time", -1)], "frequency")]

/-- The common name of a dimension, if it has one. -/
def commonName? (d : Dimension) : Option String :=
  commonNames.lookup (d.factors.map fun (name, e) => (name, e.toInt))

/-- The text of a dimension. -/
def text (d : Dimension) : List Char := Monomial.text "dimensionless".toList d

/-- The text of a dimension as a string. -/
def toText (d : Dimension) : String := String.ofList (text d)

end Dimension

/-- The canonical name of a unit is a product of powers of names of units. -/
abbrev UnitName := Monomial

namespace UnitName

/-- The text of a unit's name; the identity unit is written `1`. -/
def text (name : UnitName) : List Char := Monomial.text ['1'] name

/-- The text of a unit's name as a string. -/
def toText (name : UnitName) : String := String.ofList (text name)

end UnitName

end ExactUnits
