import ExactUnits.Registry
import ExactUnits.Proofs.Number.Power
import ExactUnits.Proofs.Outcome

/-!
# Prefixed forms of definitions

A definition is entered into a table under its own spellings, and then once more with every prefix
of its family, as a definition of its own that takes no prefix.  A power can fail, but those of the
prefix tables do not: they are small powers of two and ten.  So the forms of a definition are a
list that can be written down, and the recursion enters what the forms answer to, in order.

## Main definitions

* `Prefix.scale` — the power that a prefix stands for.
* `Definition.prefixed` — the form of a definition with a prefix.
* `Definition.forms`, `Definition.exposed` — all forms, and the entries that they make.

## Main results

* `PrefixFamily.factor_eq_scale` — the factor of every prefix that a unit can take.
* `Definition.applyPrefix_eq_prefixed` — **a definition takes the prefixes of its family.**
* `UnitTable.addUnit_eq_addAll` — **the recursion enters what the forms expose, and no form takes
  a second prefix.**
-/

namespace ExactUnits

/-! ### The factors of prefixes -/

/-- The power of its base that a prefix stands for. -/
def Prefix.scale (p : Prefix) : Number := (p.base : ℚ) ^ p.exponent

namespace PrefixFamily

variable {family : PrefixFamily} {p : Prefix}

theorem mem_tables (hp : p ∈ family.prefixes) : p ∈ Prefix.metric ++ Prefix.binary := by
  cases family with
  | none => cases hp
  | metric => exact List.mem_append_left _ hp
  | binary => exact List.mem_append_right _ hp
  | bit => exact List.mem_append_left _ (List.mem_filter.1 hp).1
  | byte =>
    rcases List.mem_append.1 hp with hp | hp
    · exact List.mem_append_left _ (List.mem_filter.1 hp).1
    · exact List.mem_append_right _ hp
  | all => exact hp

/-- The prefixes of the tables have a base other than zero, and small exponents. -/
theorem base_pos_of_mem (hp : p ∈ family.prefixes) :
    0 < p.base ∧ p.exponent.natAbs ≤ Number.powerLimit := by
  have htables : ∀ p ∈ Prefix.metric ++ Prefix.binary,
      0 < p.base ∧ p.exponent.natAbs ≤ Number.powerLimit := by decide
  exact htables p (mem_tables hp)

theorem scale_pos (hp : p ∈ family.prefixes) : 0 < p.scale :=
  zpow_pos (Nat.cast_pos.2 (base_pos_of_mem hp).1) p.exponent

/-- **Every prefix that a unit can take has a factor.** -/
theorem factor_eq_scale (hp : p ∈ family.prefixes) : p.factor = .ok p.scale := by
  obtain ⟨hbase, hlimit⟩ := base_pos_of_mem hp
  refine Number.power_eq_ok_iff.2 ⟨hlimit, fun _ => ?_, rfl⟩
  exact_mod_cast hbase.ne'

end PrefixFamily

/-! ### Forms -/

namespace Definition

/-- The form of a definition with a prefix. -/
def prefixed (d : Definition) (p : Prefix) : Definition where
  name := p.name ++ d.name
  symbols := d.symbols.map (p.symbol ++ ·)
  aliases := d.aliases.map (p.name ++ ·)
  factor := d.factor * p.scale
  offset := d.offset
  dimension := d.dimension
  family := .none

/-- The definition and its prefixed forms, in the order of the prefix tables. -/
def forms (d : Definition) : List Definition := d :: d.family.prefixes.map d.prefixed

/-- The texts of a definition and of its prefixed forms, each with its unit. -/
def exposed (d : Definition) : List (String × UnitOfMeasure) := d.forms.flatMap ownEntries

/-- **A definition takes the prefixes of its family.** -/
theorem applyPrefix_eq_prefixed {d : Definition} {p : Prefix} (hp : p ∈ d.family.prefixes) :
    d.applyPrefix p = .ok (d.prefixed p) := by
  rw [applyPrefix, PrefixFamily.factor_eq_scale hp]
  rfl

end Definition

/-! ### Entering the forms -/

namespace UnitTable

theorem addAll_append (table : UnitTable) (front back : List (String × UnitOfMeasure)) :
    table.addAll (front ++ back) = table.addAll front >>= fun next => next.addAll back :=
  List.foldlM_append

/-- Lists that are entered one after the other are entered like one list. -/
theorem foldlM_addAll (table : UnitTable) (lists : List (List (String × UnitOfMeasure))) :
    lists.foldlM addAll table = table.addAll lists.flatten := by
  induction lists generalizing table with
  | nil => rfl
  | cons list lists ih =>
    rw [List.foldlM_cons, List.flatten_cons, addAll_append]
    exact bind_congr ih

/-- A prefixed form is entered under its own spellings only. -/
theorem addUnit_prefixed (table : UnitTable) (d : Definition) (p : Prefix) :
    table.addUnit (d.prefixed p) = table.addAll (d.prefixed p).ownEntries := by
  rw [addUnit]
  exact bind_pure _

/-- **A definition is entered with what its forms expose.** -/
theorem addUnit_eq_addAll (table : UnitTable) (d : Definition) :
    table.addUnit d = table.addAll d.exposed := by
  rw [addUnit, Definition.exposed, Definition.forms, List.flatMap_cons, List.flatMap_map,
    addAll_append]
  refine bind_congr fun next => ?_
  -- the recursive calls are those on the prefixed forms, where it ends
  calc _ = d.family.prefixes.attach.unattach.foldlM
        (fun next p => next.addAll (d.prefixed p).ownEntries) next :=
      List.foldlM_subtype fun next p hp => by
        dsimp only
        rw [Definition.applyPrefix_eq_prefixed hp]
        exact next.addUnit_prefixed d p
    _ = next.addAll (d.family.prefixes.flatMap fun p => (d.prefixed p).ownEntries) := by
      rw [List.unattach_attach, List.flatMap_def, ← foldlM_addAll, List.foldlM_map]

end UnitTable

end ExactUnits
