import ExactUnits.Number.Basic

/-!
# Prefixes

A prefix multiplies a unit by a power of ten or of two.  Its name goes in front
of names and its symbol in front of symbols.  Which prefixes a unit takes is its
prefix family.

## Main definitions

* `Prefix`, `Prefix.factor` — a prefix and the factor it stands for.
* `Prefix.metric`, `Prefix.binary` — the two tables.
* `PrefixFamily`, `PrefixFamily.prefixes` — the families and their members.
-/

namespace ExactUnits

/-- A prefix such as kilo (k, 10 ^ 3) or kibi (Ki, 2 ^ 10). -/
structure Prefix where
  /-- What goes in front of a name. -/
  name : String
  /-- What goes in front of a symbol. -/
  symbol : String
  /-- The base of the factor. -/
  base : Nat
  /-- The exponent of the factor. -/
  exponent : Int
  deriving DecidableEq, Repr

namespace Prefix

/-- The factor of a prefix, a power of its base. -/
def factor (p : Prefix) : Except NumberError Number :=
  Number.power ((p.base : Int) : Rat) p.exponent

/-! ### The tables -/

/-- The metric prefixes, from 10 ^ -30 to 10 ^ 30. -/
def metric : List Prefix :=
  [⟨"quecto", "q", 10, -30⟩, ⟨"ronto", "r", 10, -27⟩, ⟨"yocto", "y", 10, -24⟩,
    ⟨"zepto", "z", 10, -21⟩, ⟨"atto", "a", 10, -18⟩, ⟨"femto", "f", 10, -15⟩,
    ⟨"pico", "p", 10, -12⟩, ⟨"nano", "n", 10, -9⟩, ⟨"micro", "\u00b5", 10, -6⟩,
    ⟨"milli", "m", 10, -3⟩, ⟨"centi", "c", 10, -2⟩, ⟨"deci", "d", 10, -1⟩,
    ⟨"deca", "da", 10, 1⟩, ⟨"hecto", "h", 10, 2⟩, ⟨"kilo", "k", 10, 3⟩,
    ⟨"mega", "M", 10, 6⟩, ⟨"giga", "G", 10, 9⟩, ⟨"tera", "T", 10, 12⟩,
    ⟨"peta", "P", 10, 15⟩, ⟨"exa", "E", 10, 18⟩, ⟨"zetta", "Z", 10, 21⟩,
    ⟨"yotta", "Y", 10, 24⟩, ⟨"ronna", "R", 10, 27⟩, ⟨"quetta", "Q", 10, 30⟩]

/-- The binary prefixes, from 2 ^ 10 to 2 ^ 80. -/
def binary : List Prefix :=
  [⟨"kibi", "Ki", 2, 10⟩, ⟨"mebi", "Mi", 2, 20⟩, ⟨"gibi", "Gi", 2, 30⟩,
    ⟨"tebi", "Ti", 2, 40⟩, ⟨"pebi", "Pi", 2, 50⟩, ⟨"exbi", "Ei", 2, 60⟩,
    ⟨"zebi", "Zi", 2, 70⟩, ⟨"yobi", "Yi", 2, 80⟩]

/-- The metric prefixes from kilo upward. -/
def largeMetric : List Prefix := metric.filter (3 ≤ ·.exponent)

end Prefix

/-- Which prefixes a unit takes. -/
inductive PrefixFamily where
  /-- No prefix. -/
  | none
  /-- All metric prefixes. -/
  | metric
  /-- All binary prefixes. -/
  | binary
  /-- The metric prefixes from kilo upward. -/
  | bit
  /-- The metric prefixes from kilo upward and the binary ones. -/
  | byte
  /-- All metric and all binary prefixes. -/
  | all
  deriving DecidableEq, Repr, Inhabited

namespace PrefixFamily

/-- The prefixes of a family, in the order of the tables. -/
def prefixes : PrefixFamily → List Prefix
  | none => []
  | metric => Prefix.metric
  | binary => Prefix.binary
  | bit => Prefix.largeMetric
  | byte => Prefix.largeMetric ++ Prefix.binary
  | all => Prefix.metric ++ Prefix.binary

/-! ### Names of the families -/

/-- The name of a family. -/
def name : PrefixFamily → String
  | none => "none"
  | metric => "metric"
  | binary => "binary"
  | bit => "bit"
  | byte => "byte"
  | all => "all"

/-- The family of a name. -/
def ofName? (text : String) : Option PrefixFamily :=
  [none, metric, binary, bit, byte, all].find? (·.name == text)

@[simp] theorem ofName?_name (family : PrefixFamily) : ofName? family.name = some family := by
  cases family <;> decide

end PrefixFamily

end ExactUnits
