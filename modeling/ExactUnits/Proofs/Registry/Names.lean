import ExactUnits.Proofs.Registry.Contents
import ExactUnits.Proofs.UnitOfMeasure.Composition

/-!
# Names determine units

A registry gives a base unit to every canonical name: that of the definition, or of
the prefixed form of one, that has the name.  Every unit of the registry, whether it
is stored under a key or read from a text, either is a base unit or is composed of
base units without an offset.  So its name says what it is.

## Main definitions

* `formsOf`, `unitNamed` — the definitions with their prefixed forms, and the base
  unit of a name.
* `Known` — the base units and the units composed of those without an offset.
* `Registry.Supplies` — the units that a registry stores or reads.

## Main results

* `Registry.forall_supplies` — a reading invariant of the forms holds of every unit of a
  registry.
* `Registry.known_of_supplies` — every unit of a registry is known.
* `Known.eq_of_name_eq` — known units with one name are equal.
* `Registry.name_determines_unit` — **a unit of a registry is what its name says.**
-/

namespace ExactUnits

/-! ### Base units -/

/-- All definitions and their prefixed forms. -/
def formsOf (definitions : List Definition) : List Definition :=
  definitions.flatMap Definition.forms

/-- The unit of the form with a name. -/
def unitNamed (definitions : List Definition) (name : String) : UnitOfMeasure :=
  (((formsOf definitions).find? (·.name == name)).map Definition.unit).getD .one

/-- What a registry that was built has been checked for: the definitions are valid, and no
two forms have the same name. -/
structure WellNamed (definitions : List Definition) : Prop where
  /-- Every definition is valid. -/
  valid : ∀ d ∈ definitions, d.fault? = none
  /-- No two forms have the same name. -/
  distinct : ((formsOf definitions).map Definition.name).Nodup

section Forms

variable {definitions : List Definition}

theorem mem_formsOf_iff {d : Definition} :
    d ∈ formsOf definitions ↔
      d ∈ definitions ∨
        ∃ origin ∈ definitions, ∃ p ∈ origin.family.prefixes, d = origin.prefixed p := by
  simp only [formsOf, Definition.forms, List.mem_flatMap, List.mem_cons, List.mem_map]
  constructor
  · rintro ⟨origin, horigin, rfl | ⟨p, hp, rfl⟩⟩
    · exact .inl horigin
    · exact .inr ⟨origin, horigin, p, hp, rfl⟩
  · rintro (hd | ⟨origin, horigin, p, hp, rfl⟩)
    · exact ⟨d, hd, .inl rfl⟩
    · exact ⟨origin, horigin, .inr ⟨p, hp, rfl⟩⟩

/-- What a form answers to is among the entries. -/
theorem mem_entries_of_form {d : Definition} (hd : d ∈ formsOf definitions)
    {e : String × UnitOfMeasure} (he : e ∈ d.ownEntries) :
    e ∈ definitions.flatMap Definition.entries := by
  obtain ⟨origin, horigin, hd⟩ := List.mem_flatMap.1 hd
  refine List.mem_flatMap.2 ⟨origin, horigin, ?_⟩
  rw [← Definition.exposed_eq_entries]
  exact List.mem_flatMap.2 ⟨d, hd, he⟩

/-- A form measures what its definition measures, and its name ends in that of the definition. -/
theorem exists_origin {d : Definition} (hd : d ∈ formsOf definitions) :
    ∃ origin ∈ definitions, origin.dimension = d.dimension ∧ origin.offset = d.offset ∧
      origin.name.toList <:+ d.name.toList := by
  rcases mem_formsOf_iff.1 hd with hd | ⟨origin, horigin, p, -, rfl⟩
  · exact ⟨d, hd, rfl, rfl, List.suffix_rfl⟩
  · refine ⟨origin, horigin, rfl, rfl, ?_⟩
    show _ <:+ (p.name ++ origin.name).toList
    rw [String.toList_append]
    exact List.suffix_append _ _

theorem WellNamed.factor_pos (h : WellNamed definitions) {d : Definition}
    (hd : d ∈ formsOf definitions) : 0 < d.factor := by
  rcases mem_formsOf_iff.1 hd with hd | ⟨origin, horigin, p, hp, rfl⟩
  · exact (Definition.fault?_eq_none_iff.1 (h.valid d hd)).2.1
  · have hpos := (Definition.fault?_eq_none_iff.1 (h.valid origin horigin)).2.1
    exact mul_pos hpos (PrefixFamily.scale_pos hp)

theorem filter_name_eq {forms : List Definition} (hdistinct : (forms.map Definition.name).Nodup)
    {d : Definition} (hd : d ∈ forms) : forms.filter (·.name == d.name) = [d] := by
  induction forms with
  | nil => cases hd
  | cons f forms ih =>
    rw [List.map_cons, List.nodup_cons] at hdistinct
    rcases List.mem_cons.1 hd with rfl | hd
    · have hrest : forms.filter (·.name == d.name) = [] := by
        refine List.filter_eq_nil_iff.2 fun f hf heq => hdistinct.1 ?_
        exact List.mem_map.2 ⟨f, hf, by simpa using heq⟩
      rw [List.filter_cons_of_pos (by simp), hrest]
    · have hne : f.name ≠ d.name := fun heq =>
        hdistinct.1 (heq ▸ List.mem_map.2 ⟨d, hd, rfl⟩)
      rw [List.filter_cons_of_neg (by simpa using hne)]
      exact ih hdistinct.2 hd

theorem WellNamed.unitNamed_eq (h : WellNamed definitions) {d : Definition}
    (hd : d ∈ formsOf definitions) : unitNamed definitions d.name = d.unit := by
  rw [unitNamed, ← List.head?_filter, filter_name_eq h.distinct hd]
  rfl

theorem WellNamed.unitNamed_factor_ne_zero (h : WellNamed definitions) (name : String) :
    (unitNamed definitions name).factor ≠ 0 := by
  rw [unitNamed]
  cases hfind : (formsOf definitions).find? (·.name == name) with
  | none => exact one_ne_zero
  | some d => exact (h.factor_pos (List.mem_of_find?_eq_some hfind)).ne'

/-! ### Known units -/

/-- The name is that of a form without an offset. -/
def IsLinearName (definitions : List Definition) (name : String) : Prop :=
  ∃ d ∈ formsOf definitions, d.name = name ∧ d.offset = none

/-- The base units, and the units that are composed of those without an offset. -/
def Known (definitions : List Definition) (u : UnitOfMeasure) : Prop :=
  (∃ d ∈ formsOf definitions, u = d.unit) ∨
    ComposedOf (unitNamed definitions) (IsLinearName definitions) u

/-- A base unit without an offset is composed of itself. -/
theorem WellNamed.composedOf_unit (h : WellNamed definitions) {d : Definition}
    (hd : d ∈ formsOf definitions) (hoffset : d.offset = none) :
    ComposedOf (unitNamed definitions) (IsLinearName definitions) d.unit where
  offset := hoffset
  names := fun n hn => by
    have hname : n = d.name := by
      by_contra hne
      exact hn (by rw [Definition.unit, UnitOfMeasure.named, Monomial.exponent_atom, if_neg hne])
    exact ⟨d, hd, hname.symm, hoffset⟩
  factor := by
    rw [Definition.unit, UnitOfMeasure.named, UnitName.factor_atom, h.unitNamed_eq hd]
    rfl
  dimension := fun x => by
    rw [Definition.unit, UnitOfMeasure.named, UnitName.dimensionExponent_atom, h.unitNamed_eq hd]
    rfl

theorem Known.composedOf (h : WellNamed definitions) {u : UnitOfMeasure} (hu : Known definitions u)
    (hoffset : u.offset = none) :
    ComposedOf (unitNamed definitions) (IsLinearName definitions) u := by
  rcases hu with ⟨d, hd, rfl⟩ | hu
  · exact h.composedOf_unit hd hoffset
  · exact hu

/-- **Known units with one name are equal.** -/
theorem Known.eq_of_name_eq (h : WellNamed definitions) {u v : UnitOfMeasure}
    (hu : Known definitions u) (hv : Known definitions v) (hname : u.name = v.name) : u = v := by
  -- a base unit is the only known unit of its name
  have hbase : ∀ d ∈ formsOf definitions, ∀ w, Known definitions w → w.name = d.unit.name →
      w = d.unit := by
    rintro d hd w (⟨e, he, rfl⟩ | hw) hdw
    · have hatom : e.name = d.name := by
        have hexp := congrArg (·.exponent d.name) hdw
        simp only [Definition.unit, UnitOfMeasure.named, Monomial.exponent_atom, if_true] at hexp
        by_contra hne
        rw [if_neg (Ne.symm hne)] at hexp
        exact absurd hexp (by decide)
      rw [← h.unitNamed_eq he, hatom, h.unitNamed_eq hd]
    · obtain ⟨e, he, hed, hoffset⟩ := hw.names d.name (by
        rw [hdw, Definition.unit, UnitOfMeasure.named, Monomial.exponent_atom, if_pos rfl]
        decide)
      have hde : d.offset = none := by
        have hunits := h.unitNamed_eq hd
        rw [← hed, h.unitNamed_eq he] at hunits
        exact (congrArg UnitOfMeasure.offset hunits).symm.trans hoffset
      exact hw.eq_of_name_eq (h.composedOf_unit hd hde) hdw
  rcases hu with ⟨d, hd, rfl⟩ | hu
  · exact (hbase d hd v hv hname.symm).symm
  · rcases hv with ⟨d, hd, rfl⟩ | hv
    · exact hbase d hd u (.inr hu) hname
    · exact hu.eq_of_name_eq hv hname

/-- No known unit has the factor zero. -/
theorem Known.factor_ne_zero (h : WellNamed definitions) {u : UnitOfMeasure}
    (hu : Known definitions u) : u.factor ≠ 0 := by
  rcases hu with ⟨d, hd, rfl⟩ | hu
  · exact (h.factor_pos hd).ne'
  · rw [hu.factor]
    exact UnitName.factor_ne_zero h.unitNamed_factor_ne_zero u.name

/-- Reading keeps units known, and those without an offset composed. -/
theorem WellNamed.readingInvariant (h : WellNamed definitions) :
    ReadingInvariant (Known definitions)
      (ComposedOf (unitNamed definitions) (IsLinearName definitions)) where
  linear := fun _ hu haffine => hu.composedOf h (UnitOfMeasure.isAffine_eq_false_iff.1 haffine)
  composite := fun _ hu => .inr hu
  one := .one
  mul := fun _ _ _ hu hv => hu.mul h.unitNamed_factor_ne_zero hv
  div := fun _ _ _ hu hv => hu.div h.unitNamed_factor_ne_zero hv
  pow := fun _ _ _ hu => hu.pow

/-! ### The units of a registry -/

section Invariants

variable {P Q : UnitOfMeasure → Prop}

theorem forall_mem_entries (hforms : ∀ d ∈ formsOf definitions, P d.unit) :
    ∀ e ∈ definitions.flatMap Definition.entries, P e.2 := by
  intro e he
  obtain ⟨d, hd, he⟩ := List.mem_flatMap.1 he
  rcases List.mem_append.1 he with he | he
  · obtain ⟨s, -, rfl⟩ := List.mem_map.1 he
    exact hforms d (mem_formsOf_iff.2 (.inl hd))
  · obtain ⟨p, hp, he⟩ := List.mem_flatMap.1 he
    obtain ⟨s, -, rfl⟩ := List.mem_map.1 he
    exact hforms (d.prefixed p) (mem_formsOf_iff.2 (.inr ⟨d, hd, p, hp, rfl⟩))

/-- Aliases keep a reading invariant of the entries that their targets are read with. -/
theorem Resolved.forall_units (hinv : ReadingInvariant P Q) {front units : Entries}
    {aliases : List (String × String)} (hresolved : Resolved front aliases units)
    (hfront : ∀ e ∈ front, P e.2) : ∀ e ∈ units, P e.2 := by
  induction hresolved with
  | nil => exact fun e he => absurd he List.not_mem_nil
  | @cons front units name target unit aliases hread _ ih =>
    -- the target is read with entries that have the property already
    have hunit : P unit := by
      refine hinv.readUnit (fun key u hu => ?_) hread
      obtain ⟨e, he, -, rfl⟩ := Entries.exists_entry_of_vocabulary hu
      exact hfront e he
    refine List.forall_mem_cons.2 ⟨hunit, ih fun e he => ?_⟩
    rcases List.mem_append.1 he with he | he
    · exact hfront e he
    · rw [List.mem_singleton.1 he]
      exact hunit

end Invariants

end Forms

namespace Registry

variable {definitions : List Definition} {aliases : NameMap String} {r : Registry}

theorem names_sublist_strings (definitions : List Definition) :
    ((formsOf definitions).map Definition.name).Sublist
      (definitions.flatMap Definition.strings) := by
  rw [formsOf, List.map_flatMap]
  refine List.Sublist.flatMap_right definitions fun d _ => ?_
  have hown : [d.name].Sublist d.spellings := by simp [Definition.spellings]
  have hvariants : (d.family.prefixes.flatMap fun p => [p.name ++ d.name]).Sublist
      (d.family.prefixes.flatMap d.prefixedSpellings) :=
    List.Sublist.flatMap_right _ fun p _ => by simp [Definition.prefixedSpellings]
  have hforms : d.forms.map Definition.name =
      [d.name] ++ d.family.prefixes.flatMap fun p => [p.name ++ d.name] := by
    simp [Definition.forms, Definition.prefixed, ← List.map_eq_flatMap]
  rw [hforms]
  exact hown.append hvariants

theorem wellNamed_of_build (h : build definitions aliases = .ok r) : WellNamed definitions := by
  obtain ⟨-, hvalid, units, hunits, hholds⟩ := holds_of_build h
  refine ⟨hvalid, ?_⟩
  have hkeys : (keys definitions aliases).Nodup := keys_eq hunits ▸ hholds.distinct
  have hstrings := (List.nodup_append.1 hkeys).1.of_map
  exact hstrings.sublist (names_sublist_strings definitions)

/-- The units that a registry stores under a key or reads from a text. -/
def Supplies (r : Registry) (u : UnitOfMeasure) : Prop :=
  (∃ text, r.readUnit text = .ok u) ∨ ∃ key : String, r.table[key]? = some u

section Invariants

variable {P Q : UnitOfMeasure → Prop}

theorem forall_table (h : build definitions aliases = .ok r) (hinv : ReadingInvariant P Q)
    (hforms : ∀ d ∈ formsOf definitions, P d.unit) {key : String} {u : UnitOfMeasure}
    (hu : r.table[key]? = some u) : P u := by
  obtain ⟨-, -, units, hunits, hholds⟩ := holds_of_build h
  rw [hholds.lookup] at hu
  obtain ⟨e, he, -, rfl⟩ := Entries.exists_entry_of_vocabulary hu
  rcases List.mem_append.1 he with he | he
  · exact forall_mem_entries hforms e he
  · exact hunits.forall_units hinv (forall_mem_entries hforms) e he

/-- **A reading invariant of the forms holds of every unit of a registry.** -/
theorem forall_supplies (h : build definitions aliases = .ok r) (hinv : ReadingInvariant P Q)
    (hforms : ∀ d ∈ formsOf definitions, P d.unit) {u : UnitOfMeasure} (hu : r.Supplies u) :
    P u := by
  rcases hu with ⟨text, hread⟩ | ⟨key, hkey⟩
  · exact hinv.readUnit (fun _ _ => forall_table h hinv hforms) hread
  · exact forall_table h hinv hforms hkey

end Invariants

/-- Every key stands for a known unit. -/
theorem known_of_table (h : build definitions aliases = .ok r) {key : String} {u : UnitOfMeasure}
    (hu : r.table[key]? = some u) : Known definitions u :=
  forall_table h (wellNamed_of_build h).readingInvariant (fun d hd => .inl ⟨d, hd, rfl⟩) hu

/-- **Every unit of a registry is known.** -/
theorem known_of_supplies (h : build definitions aliases = .ok r) {u : UnitOfMeasure}
    (hu : r.Supplies u) : Known definitions u :=
  forall_supplies h (wellNamed_of_build h).readingInvariant (fun d hd => .inl ⟨d, hd, rfl⟩) hu

/-- The unit is what its name says: every name that occurs is that of one definition or
prefixed form, the factor and the dimension are those of the product of the named units,
and a unit with an offset is the named unit itself. -/
structure Explains (r : Registry) (u : UnitOfMeasure) : Prop where
  /-- A name that occurs is that of exactly one form. -/
  named : ∀ p ∈ u.name.factors, ∃ d, (formsOf r.definitions).filter (·.name == p.1) = [d] ∧
    unitNamed r.definitions p.1 = d.unit
  /-- The factor is the product of the powers of the named factors. -/
  factor : u.factor =
    (u.name.factors.map fun p => (unitNamed r.definitions p.1).factor ^ p.2.toInt).prod
  /-- The exponents are the sums of the multiples of the named exponents. -/
  dimension : ∀ x, u.dimension.exponent x =
    (u.name.factors.map fun p => p.2.toInt * (unitNamed r.definitions p.1).dimension.exponent x).sum
  /-- Only a base unit has an offset. -/
  offset : ∀ o, u.offset = some o → ∃ n, u.name.factors = [(n, 1)] ∧ u = unitNamed r.definitions n

theorem explains_of_known (h : WellNamed r.definitions) {u : UnitOfMeasure}
    (hu : Known r.definitions u) : r.Explains u := by
  have hform : ∀ d ∈ formsOf r.definitions,
      (formsOf r.definitions).filter (·.name == d.name) = [d] ∧
        unitNamed r.definitions d.name = d.unit :=
    fun d hd => ⟨filter_name_eq h.distinct hd, h.unitNamed_eq hd⟩
  rcases hu with ⟨d, hd, rfl⟩ | hu
  · have hbase := h.unitNamed_eq hd
    have hfactors : d.unit.name.factors = [(d.name, 1)] := rfl
    refine ⟨?_, ?_, fun x => ?_, fun o _ => ⟨d.name, hfactors, hbase.symm⟩⟩
    · rw [hfactors]
      exact List.forall_mem_singleton.2 ⟨d, hform d hd⟩
    · rw [hfactors, List.map_singleton, List.prod_singleton, hbase]
      exact (zpow_one _).symm
    · rw [hfactors, List.map_singleton, List.sum_singleton, hbase]
      exact (one_mul _).symm
  · refine ⟨fun p hp => ?_, ?_, fun x => ?_, fun o ho => ?_⟩
    · obtain ⟨d, hd, hname, -⟩ := hu.names p.1 (Monomial.exponent_ne_zero_of_mem hp)
      exact ⟨d, hname ▸ hform d hd⟩
    · rw [hu.factor, UnitName.factor_eq_prod]
    · rw [hu.dimension, UnitName.dimensionExponent_eq_sum]
    · rw [hu.offset] at ho
      cases ho

/-- **A unit of a registry is what its name says**, and so units of one name are equal. -/
theorem name_determines_unit (h : build definitions aliases = .ok r) {u : UnitOfMeasure}
    (hu : r.Supplies u) :
    r.Explains u ∧ ∀ v, r.Supplies v → v.name = u.name → v = u := by
  have hdefinitions : r.definitions = definitions := definitions_of_build h
  have hnamed := wellNamed_of_build h
  refine ⟨explains_of_known (hdefinitions ▸ hnamed) (hdefinitions ▸ known_of_supplies h hu), ?_⟩
  intro v hv hname
  exact Known.eq_of_name_eq hnamed (known_of_supplies h hv) (known_of_supplies h hu) hname

/-- In a registry of metres and minutes, `speed*meter/min` is read as a unit of the name
`metre^2/minute^2`, which explains it. -/
theorem name_determines_unit_speed :
    let metre : Definition := ⟨"metre", ["m"], [], 1, none, .base "length", .none⟩
    let minute : Definition := ⟨"minute", ["min"], [], 60, none, .base "time", .none⟩
    ∃ r u, build [metre, minute] (.single "speed" "m per min") = .ok r ∧
      r.readUnit "speed*meter/min" = .ok u ∧ u.name.toText = "metre^2/minute^2" ∧
        r.Explains u := by
  intro metre minute
  have hread : (build [metre, minute] (.single "speed" "m per min") >>= fun r =>
      .ok (r.readUnit "speed*meter/min")) = .ok (.ok ⟨.ofList [("metre", 2), ("minute", -2)],
        mkRat 1 3600, .ofList [("length", 2), ("time", -2)], none⟩) := by
    decide +kernel
  obtain ⟨r, hr, hu⟩ := Except.bind_eq_ok_iff.1 hread
  have hu := Except.ok.inj hu
  exact ⟨r, _, hr, hu, by decide +kernel, (name_determines_unit hr (.inl ⟨_, hu⟩)).1⟩

end Registry

end ExactUnits
