import ExactUnits.Failure

/-!
# JSON values

The values that units, quantities and records are exchanged as.  An integer and
a floating-point number are told apart, since a record accepts only the first.
A value that does not decode is an error without a text of its own.

## Main definitions

* `Json` — the values.
* `Decoded` — the result of decoding a value.
* `Json.field?`, `Json.required`, `Json.optional` — members of an object.
-/

namespace ExactUnits

/-- A JSON value. -/
inductive Json where
  /-- The value without content. -/
  | null
  /-- A truth value. -/
  | bool (b : Bool)
  /-- A number written as an integer. -/
  | int (n : Int)
  /-- A number written with a fraction or an exponent. -/
  | real (x : Float)
  /-- A text. -/
  | str (text : String)
  /-- A list. -/
  | arr (items : List Json)
  /-- Members by name; of several members of one name the first one counts. -/
  | obj (members : List (String × Json))
  deriving Inhabited

/-- The result of decoding a value. -/
abbrev Decoded (α : Type) : Type := Except (Failure Unit) α

namespace Decoded

/-- The value does not have the shape that is decoded. -/
def reject {α : Type} : Decoded α := .error (.returned ())

/-- The value decodes if there is something that it stands for. -/
def ofOption {α : Type} : Option α → Decoded α
  | some x => .ok x
  | none => reject

end Decoded

namespace Json

/-- The member of an object with the given name. -/
def field? (name : String) : Json → Option Json
  | obj members => members.lookup name
  | _ => none

/-- Decode a member that may be missing or null, which is no value at all. -/
def optional {α : Type} (decode : Json → Decoded α) (name : String) (json : Json) :
    Decoded (Option α) :=
  match json.field? name with
  | none | some null => .ok none
  | some value => (decode value).map some

/-- Decode a member that may be missing, and then has a default value. -/
def withDefault {α : Type} (decode : Json → Decoded α) (default : α) (name : String)
    (json : Json) : Decoded α :=
  match json.field? name with
  | none => .ok default
  | some value => decode value

/-- Decode a member that has to be there. -/
def required {α : Type} (decode : Json → Decoded α) (name : String) (json : Json) : Decoded α :=
  match json.field? name with
  | none => .reject
  | some value => decode value

/-- Decode a text. -/
def text : Json → Decoded String
  | str text => .ok text
  | _ => .reject

/-- Decode a list of texts. -/
def texts : Json → Decoded (List String)
  | arr items => items.mapM text
  | _ => .reject

end Json

end ExactUnits
