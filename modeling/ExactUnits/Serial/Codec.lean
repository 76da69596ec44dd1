import ExactUnits.Quantity.Basic
import ExactUnits.Record
import ExactUnits.Serial.Json

/-!
# Values as JSON

Numbers are texts, so nothing is lost; dimensions and the names of units are
objects from names to exponents.  Decoding checks the shape of a value and
nothing else: a unit may have any factor, and a composite one an offset.

## Main definitions

* `Number.toJson`, `Number.ofJson` — numbers as texts.
* `Monomial.toJson`, `Monomial.ofJson` — dimensions and names of units.
* `UnitOfMeasure.toJson`, `UnitOfMeasure.ofJson`, and the same for `Quantity`.
* `Record.toJson`, `Record.ofJson` — raw records, without their source.
-/

namespace ExactUnits

/-! ### Numbers -/

/-- A number is encoded as its written form. -/
def Number.toJson (x : Number) : Json := .str x.toText

/-- A number is decoded from a text that spells one. -/
def Number.ofJson : Json → Decoded Number
  | .str text => (Number.read text).mapError (Failure.map fun _ => ())
  | _ => .reject

/-! ### Exponents by name -/

/-- An exponent is decoded from an integer that fits. -/
def Exponent.ofJson : Json → Decoded Exponent
  | .int n => .ofOption (Exponent.ofInt? n)
  | _ => .reject

namespace NameMap

/-- Encode a map as an object. -/
def toJson {α : Type} (encode : α → Json) (map : NameMap α) : Json :=
  .obj (map.entries.map fun (name, value) => (name, encode value))

/-- Decode a member of an object. -/
def entryOfMember {α : Type} (decode : Json → Decoded α) (member : String × Json) :
    Decoded (String × α) := (decode member.2).map fun value => (member.1, value)

/-- Decode a map from an object. -/
def ofJson {α : Type} (decode : Json → Decoded α) : Json → Decoded (NameMap α)
  | .obj members => (members.mapM (entryOfMember decode)).map ofList
  | _ => .reject

end NameMap

/-- Exponents are encoded as integers. -/
def exponentsToJson (exponents : NameMap Exponent) : Json := exponents.toJson fun e => .int e.toInt

namespace Monomial

/-- A monomial is encoded as the object of its exponents. -/
def toJson (m : Monomial) : Json := exponentsToJson m.powers

/-- A monomial is decoded from an object of exponents; zeros are dropped. -/
def ofJson (json : Json) : Decoded Monomial := (NameMap.ofJson Exponent.ofJson json).map ofMap

end Monomial

/-! ### Units and quantities -/

namespace UnitOfMeasure

/-- A unit is encoded with its offset only if it has one. -/
def toJson (u : UnitOfMeasure) : Json :=
  .obj ([("name", u.name.toJson), ("factor", u.factor.toJson), ("dimension", u.dimension.toJson)]
    ++ u.offset.toList.map fun offset => ("offset", offset.toJson))

/-- Decode a unit; an offset may be missing or null. -/
def ofJson (json : Json) : Decoded UnitOfMeasure := do
  let name ← json.required Monomial.ofJson "name"
  let factor ← json.required Number.ofJson "factor"
  let dimension ← json.required Monomial.ofJson "dimension"
  let offset ← json.optional Number.ofJson "offset"
  return ⟨name, factor, dimension, offset⟩

end UnitOfMeasure

namespace Quantity

/-- Encode a quantity. -/
def toJson (q : Quantity) : Json := .obj [("value", q.value.toJson), ("unit", q.unit.toJson)]

/-- Decode a quantity. -/
def ofJson (json : Json) : Decoded Quantity := do
  let value ← json.required Number.ofJson "value"
  let unit ← json.required UnitOfMeasure.ofJson "unit"
  return ⟨value, unit⟩

end Quantity

/-! ### Records -/

namespace Amount

/-- Encode an amount as it is written. -/
def toJson : Amount → Json
  | integer n => .int n.toInt
  | text t => .str t
  | float x => .real x

/-- Decode an amount; an integer beyond 64 bits is a floating-point number. -/
def ofJson : Json → Decoded Amount
  | .int n =>
    if Number.FitsInt64 n then .ok (integer (Int64.ofInt n)) else .ok (float (Float.ofInt n))
  | .str t => .ok (text t)
  | .real x => .ok (float x)
  | _ => .reject

end Amount

namespace DimensionEntry

/-- Encode a dimension as it is written. -/
def toJson : DimensionEntry → Json
  | name n => .str n
  | map exponents => exponentsToJson exponents

/-- Decode a dimension as it is written; zeros are kept. -/
def ofJson : Json → Decoded DimensionEntry
  | .str n => .ok (name n)
  | json => (NameMap.ofJson Exponent.ofJson json).map map

end DimensionEntry

namespace PrefixFamily

/-- A family is encoded as its name. -/
def toJson (family : PrefixFamily) : Json := .str family.name

/-- Decode a family from its name. -/
def ofJson : Json → Decoded PrefixFamily
  | .str text => .ofOption (ofName? text)
  | _ => .reject

end PrefixFamily

namespace Record

/-- A value that may be absent is encoded as null then. -/
def orNull {α : Type} (encode : α → Json) (value : Option α) : Json := (value.map encode).getD .null

/-- Encode a record.  The offset is left out if there is none, and the source
always. -/
def toJson (r : Record) : Json :=
  .obj ([("name", .str r.name), ("symbols", .arr (r.symbols.map .str)),
      ("aliases", .arr (r.aliases.map .str)), ("factor", orNull Amount.toJson r.factor),
      ("dimension", orNull DimensionEntry.toJson r.dimension),
      ("prefix", orNull PrefixFamily.toJson r.family)]
    ++ r.offset.toList.map fun offset => ("offset", offset.toJson))

/-- Decode a record without a source. -/
def ofJson (json : Json) : Decoded Record := do
  let name ← json.required Json.text "name"
  let symbols ← json.withDefault Json.texts [] "symbols"
  let aliases ← json.withDefault Json.texts [] "aliases"
  let factor ← json.optional Amount.ofJson "factor"
  let offset ← json.optional Amount.ofJson "offset"
  let dimension ← json.optional DimensionEntry.ofJson "dimension"
  let family ← json.optional PrefixFamily.ofJson "prefix"
  return { name, symbols, aliases, factor, offset, dimension, family, source := none }

end Record

end ExactUnits
