import ExactUnits.Record
import ExactUnits.Vocabulary
import Std.Data.TreeMap

/-!
# Registries

A registry is built once from definitions and a record of aliases.  Every text
that a definition or one of its prefixed forms answers to becomes a key in its
normal spelling, and no key may be taken twice.  The aliases follow in the order
of their names; the target of each is read with the keys that exist by then.

## Main definitions

* `Registry` — the units by key and the definitions they come from.
* `Registry.build`, `Registry.ofRecords` — building a registry.
* `Registry.vocabulary` — the registry as a vocabulary, for reading units.
* `Registry.unit`, `Registry.contains`, `Registry.entries` — looking units up.
-/

namespace ExactUnits

/-- The units by their keys. -/
abbrev UnitTable := Std.TreeMap String UnitOfMeasure

namespace UnitTable

/-- The table as a vocabulary. -/
def vocabulary (table : UnitTable) : Vocabulary := fun key => table[key]?

/-- Enter a unit under the normal spelling of a name, which must be free. -/
def add (table : UnitTable) (name : String) (unit : UnitOfMeasure) :
    Except (Failure UnitError) UnitTable :=
  match table[normalize name]? with
  | some existing => .error (.showing [existing.name] (.duplicate name existing.toText))
  | none => .ok (table.insert (normalize name) unit)

/-- Enter a list of units under their names. -/
def addAll (table : UnitTable) (entries : List (String × UnitOfMeasure)) :
    Except (Failure UnitError) UnitTable :=
  entries.foldlM (fun table (name, unit) => table.add name unit) table

/-- Enter the unit of a definition under all its spellings, and then the units of its prefixed
forms in the same way.  These take no further prefix. -/
def addUnit (table : UnitTable) (d : Definition) : Except (Failure UnitError) UnitTable := do
  let table ← table.addAll d.ownEntries
  d.family.prefixes.attach.foldlM (fun table ⟨p, _hp⟩ =>
    match _hform : d.applyPrefix p with
    | .ok form => table.addUnit form
    | .error e => .error (.returned (.number e))) table
termination_by d.family.prefixes.length
decreasing_by
  rw [Definition.family_of_applyPrefix _hform]
  exact List.length_pos_of_mem _hp

/-- Enter the units of a definition, provided that it is valid. -/
def addDefinition (table : UnitTable) (d : Definition) : Except (Failure UnitError) UnitTable := do
  (d.validate Definition.inlineSource).mapError .returned
  table.addUnit d

/-- The file named for aliases. -/
def aliasSource : String := "<aliases>"

/-- Enter the unit that the target of an alias stands for. -/
def addAlias (table : UnitTable) (name target : String) : Except (Failure UnitError) UnitTable :=
  match table.vocabulary.readUnit target with
  | .ok unit => table.add name unit
  | .error cause =>
    .error (.returned (.definition name aliasSource (.unresolved target cause.message)))

end UnitTable

/-- The units known by their keys, with the definitions they come from. -/
structure Registry where
  /-- The units by key. -/
  table : UnitTable
  /-- The definitions, in the order in which they were given. -/
  definitions : List Definition

namespace Registry

/-! ### Building -/

/-- Build a registry from definitions and aliases. -/
def build (definitions : List Definition) (aliases : NameMap String) :
    Except (Failure UnitError) Registry := do
  let defined ← definitions.foldlM UnitTable.addDefinition ∅
  let table ← aliases.entries.foldlM (fun table (name, target) => table.addAlias name target) defined
  return ⟨table, definitions⟩

/-- Build a registry from raw records and aliases.  All records are converted
before the first one is entered. -/
def ofRecords (records : List Record) (aliases : NameMap String) :
    Except (Failure UnitError) Registry := do
  let definitions ← records.mapM Definition.ofRecord
  build definitions aliases

/-! ### Looking up -/

/-- The registry as a vocabulary. -/
def vocabulary (r : Registry) : Vocabulary := r.table.vocabulary

/-- The unit whose name, symbol or alias a text is. -/
def unit (r : Registry) (text : String) : Except UnitError UnitOfMeasure :=
  match r.table[normalize text]? with
  | some unit => .ok unit
  | none => .error (.unknown text)

/-- Whether a text is a name, symbol or alias. -/
def contains (r : Registry) (text : String) : Bool := r.table.contains (normalize text)

/-- The number of keys. -/
def size (r : Registry) : Nat := r.table.size

/-- Whether there are no keys. -/
def isEmpty (r : Registry) : Bool := r.table.isEmpty

/-- The keys with their units, in the order of the keys. -/
def entries (r : Registry) : List (String × UnitOfMeasure) := r.table.toList

/-- Read a unit. -/
def readUnit (r : Registry) (text : String) : Except UnitError UnitOfMeasure :=
  r.vocabulary.readUnit text

end Registry

end ExactUnits
