import ExactUnits.Dimension
import ExactUnits.Text.Quoted

/-!
# What can go wrong with units

Each error is a cause with what shows it; its message, its code and whether it
concerns the setup of a registry are functions of the cause.  Dimensions and names
of units are written when the error comes up.

## Main definitions

* `DefinitionFault` — what is wrong with a definition, an alias or a record.
* `ScaleFault` — why a temperature unit has no scale.
* `UnitError` — all errors of the library, numbers included.
* `UnitError.message`, `UnitError.code`, `UnitError.isFatal`.
-/

namespace ExactUnits

open Text

/-! ### Faults of definitions -/

/-- What is wrong with a definition, an alias or a record. -/
inductive DefinitionFault where
  /-- The name is blank. -/
  | blankName
  /-- A symbol or an alias is blank. -/
  | blankSpelling (text : String)
  /-- The factor is zero or negative. -/
  | factorNotPositive (factor : Number)
  /-- There is an offset, but the unit does not measure plain temperatures. -/
  | misplacedOffset
  /-- The record has no factor. -/
  | missingFactor
  /-- The record has no dimension. -/
  | missingDimension
  /-- A factor or an offset is not written like a number. -/
  | badAmount (text : String) (cause : NumberError)
  /-- A factor or an offset is a floating-point number, which `shown` spells. -/
  | inexactAmount (shown : String)
  /-- The target of an alias cannot be read; `cause` is the message that says why. -/
  | unresolved (target : String) (cause : String)
  deriving DecidableEq

/-- The reason given for a fault. -/
def DefinitionFault.message : DefinitionFault → String
  | .blankName => "empty unit name"
  | .blankSpelling text => s!"empty symbol or alias {quoted text}"
  | .factorNotPositive factor => s!"factor must be positive, got {factor.toText}"
  | .misplacedOffset => "offset is only allowed on temperature units"
  | .missingFactor => "missing factor"
  | .missingDimension => "missing dimension"
  | .badAmount text cause => s!"bad factor {quoted text}: {cause.message}"
  | .inexactAmount shown =>
    s!"factor {shown} is a float and may be inexact; write it as a string"
  | .unresolved target cause => s!"cannot resolve '{target}': {cause}"

/-! ### Faults of temperature scales -/

/-- Why a temperature unit has no scale. -/
inductive ScaleFault where
  /-- The unit is composite, but has an offset. -/
  | composite (unit : String)
  /-- The name of the unit ends in no known scale. -/
  | unrecognised (name : String)
  deriving DecidableEq

/-- The reason given for a scale that cannot be found. -/
def ScaleFault.message : ScaleFault → String
  | .composite unit => s!"affine composite unit '{unit}'"
  | .unrecognised name => s!"unrecognised temperature unit '{name}'"

/-! ### Errors -/

/-- The errors of the library. -/
inductive UnitError where
  /-- A text names no unit. -/
  | unknown (text : String)
  /-- A name is already taken by another unit. -/
  | duplicate (name existing : String)
  /-- A conversion between different dimensions. -/
  | incompatible (source target : String)
  /-- A unit with an offset inside a product, a quotient or a power. -/
  | composition (unit expression : String)
  /-- More than one bar in a unit text. -/
  | divisions (text : String)
  /-- A definition, an alias or a record that cannot be used. -/
  | definition (unit file : String) (fault : DefinitionFault)
  /-- A power zero, or an exponent that does not fit. -/
  | exponent (cause : ExponentError)
  /-- A temperature without a scale. -/
  | scale (fault : ScaleFault)
  /-- An error of a number. -/
  | number (cause : NumberError)
  deriving DecidableEq

namespace UnitError

/-- The message of an error. -/
def message : UnitError → String
  | unknown text => s!"unknown unit: {text}"
  | duplicate name existing =>
    s!"duplicate unit name '{name}' (already registered for {existing})"
  | incompatible source target =>
    s!"cannot convert {source} to {target}: incompatible dimensions"
  | composition unit expression =>
    s!"cannot combine affine unit '{unit}' with other units in '{expression}'"
  | divisions text =>
    s!"unsupported unit expression '{text}': multiple division operators are not supported"
  | definition unit file fault =>
    s!"invalid definition for unit '{unit}' in {file}: {fault.message}"
  | exponent cause => cause.message
  | scale fault => s!"converter error: {fault.message}"
  | number cause => cause.message

/-- The code of an error. -/
def code : UnitError → String
  | unknown _ => "INVALID_UNIT"
  | duplicate .. => "DUPLICATE_UNIT"
  | incompatible .. => "INCOMPATIBLE_UNITS"
  | composition .. => "COMPOSITION"
  | divisions _ => "MULTIPLE_DIVISION"
  | definition .. => "DEFINITION"
  | exponent .zero => "INVALID_EXPONENT"
  | exponent (.outOfRange _) => "EXPONENT_OVERFLOW"
  | scale _ => "CONVERTER"
  | number _ => "NUMBER"

/-- Whether the error is one of the setup or the program rather than of a text
that a user entered. -/
def isFatal : UnitError → Bool
  | duplicate .. | definition .. | exponent .zero | scale _ => true
  | _ => false

end UnitError

end ExactUnits
