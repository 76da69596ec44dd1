import ExactUnits.Prefix
import ExactUnits.UnitOfMeasure

/-!
# Definitions of units

A definition gives a unit its name, the symbols and aliases it also answers to,
its factor, its dimension, perhaps an offset, and the family of prefixes it
takes.  A prefix makes a definition of its own out of it, which takes no further
prefix.

## Main definitions

* `Definition` — the definitions, with `Definition.unit`, the unit defined.
* `Definition.spellings` — all texts that a definition answers to.
* `Definition.ownEntries` — these texts with the unit.
* `Definition.applyPrefix` — the definition with a prefix.
* `Definition.fault?`, `Definition.validate` — the checks before a definition is used.
-/

namespace ExactUnits

open Text

/-- A definition of a unit. -/
structure Definition where
  /-- The canonical name. -/
  name : String
  /-- The symbols, which take the symbol of a prefix. -/
  symbols : List String
  /-- Other names, which take the name of a prefix. -/
  aliases : List String
  /-- The factor relative to the base unit of the dimension. -/
  factor : Number
  /-- The offset, for scales of temperature only. -/
  offset : Option Number
  /-- What the unit measures. -/
  dimension : Dimension
  /-- The prefixes that the unit takes. -/
  family : PrefixFamily
  deriving DecidableEq

namespace Definition

/-! ### What a definition stands for -/

/-- All texts that the definition answers to: its name, symbols and aliases. -/
def spellings (d : Definition) : List String := d.name :: d.symbols ++ d.aliases

/-- The unit that is defined. -/
def unit (d : Definition) : UnitOfMeasure :=
  UnitOfMeasure.named d.name d.factor d.dimension d.offset

/-- The texts that the definition answers to, each with the unit. -/
def ownEntries (d : Definition) : List (String × UnitOfMeasure) :=
  d.spellings.map fun spelling => (spelling, d.unit)

/-- The definition of the unit with a prefix, which takes no further prefix. -/
def applyPrefix (d : Definition) (p : Prefix) : Except NumberError Definition := do
  let factor ← p.factor
  return {
    name := p.name ++ d.name
    symbols := d.symbols.map (p.symbol ++ ·)
    aliases := d.aliases.map (p.name ++ ·)
    factor := d.factor * factor
    offset := d.offset
    dimension := d.dimension
    family := .none }

theorem family_of_applyPrefix {d form : Definition} {p : Prefix}
    (h : d.applyPrefix p = .ok form) : form.family = .none := by
  unfold applyPrefix at h
  cases hfactor : p.factor with
  | error e =>
    rw [hfactor] at h
    cases h
  | ok factor =>
    rw [hfactor] at h
    cases h
    rfl

/-! ### Checks -/

/-- Whether a text has no characters but blanks. -/
def isBlankText (text : String) : Bool := isAllBlank text.toList

/-- What is wrong with a definition, if anything is. -/
def fault? (d : Definition) : Option DefinitionFault :=
  if isBlankText d.name then some .blankName
  else
    match d.spellings.find? isBlankText with
    | some spelling => some (.blankSpelling spelling)
    | none =>
      if d.factor ≤ 0 then some (.factorNotPositive d.factor)
      else if d.offset.isSome && !d.dimension.isTemperature then some .misplacedOffset
      else none

/-- Accept a definition, or report its fault under the name of a file. -/
def validate (d : Definition) (file : String) : Except UnitError PUnit :=
  match d.fault? with
  | some fault => .error (.definition d.name file fault)
  | none => .ok ()

/-- The file named for definitions that come from no file. -/
def inlineSource : String := "<inline>"

end Definition

end ExactUnits
