import Mathlib.Data.List.Nodup
import ExactUnits.Registry
import ExactUnits.Proofs.Outcome
import ExactUnits.Proofs.Registry.Forms

/-!
# What a registry contains

A registry is a table of the texts that its definitions expose, with and without
prefixes, and of its aliases.  The table is compared with the plain list of these
entries: building succeeds exactly if every definition is valid, no two entries
have the same normal spelling, and every alias can be read with the entries in
front of it; and then a key stands for the unit of its entry.

## Main definitions

* `Entries`, `Entries.keys`, `Entries.vocabulary` — lists of entries, their keys and
  the units that the keys stand for.
* `Definition.entries` — what a definition exposes, spelled out.
* `Resolved` — the entries that a list of aliases adds.
* `UnitTable.Holds` — a table consists of given entries.

## Main results

* `Definition.fault?_eq_none_iff` — when a definition is valid.
* `Registry.holds_of_build`, `Registry.exists_build` — what building gives and needs.
* `Registry.build_exact` — **when a registry can be built, and what it is then.**
-/

namespace ExactUnits

/-! ### Lists of entries -/

/-- Names with their units, in the order in which they are entered. -/
abbrev Entries := List (String × UnitOfMeasure)

namespace Entries

/-- The normal spellings of the names. -/
def keys (entries : Entries) : List String := entries.map fun e => normalize e.1

/-- The unit of the first entry with a given key. -/
def vocabulary (entries : Entries) : Vocabulary :=
  fun key => (entries.map fun e => (normalize e.1, e.2)).lookup key

@[simp] theorem keys_nil : keys [] = [] := rfl

@[simp] theorem keys_cons (e : String × UnitOfMeasure) (entries : Entries) :
    keys (e :: entries) = normalize e.1 :: keys entries := rfl

@[simp] theorem keys_append (a b : Entries) : keys (a ++ b) = keys a ++ keys b := List.map_append

theorem mem_keys_iff {entries : Entries} {key : String} :
    key ∈ keys entries ↔ ∃ e ∈ entries, normalize e.1 = key := List.mem_map

@[simp] theorem vocabulary_nil (key : String) : vocabulary [] key = none := rfl

theorem vocabulary_cons (e : String × UnitOfMeasure) (entries : Entries) (key : String) :
    vocabulary (e :: entries) key =
      if key = normalize e.1 then some e.2 else vocabulary entries key :=
  NameMap.lookup_cons_ite ..

theorem vocabulary_append (a b : Entries) (key : String) :
    vocabulary (a ++ b) key = (vocabulary a key).or (vocabulary b key) := by
  simp [vocabulary, List.lookup_append]

theorem vocabulary_eq_none_iff {entries : Entries} {key : String} :
    vocabulary entries key = none ↔ key ∉ keys entries := by
  induction entries with
  | nil => simp
  | cons e entries ih =>
    rw [vocabulary_cons, keys_cons, List.mem_cons, not_or, ← ih]
    by_cases h : key = normalize e.1 <;> simp [h]

theorem exists_entry_of_vocabulary {entries : Entries} {key : String} {unit : UnitOfMeasure}
    (h : vocabulary entries key = some unit) : ∃ e ∈ entries, normalize e.1 = key ∧ e.2 = unit := by
  induction entries with
  | nil => cases h
  | cons e entries ih =>
    rw [vocabulary_cons] at h
    split at h
    · next hkey => exact ⟨e, List.mem_cons_self .., hkey.symm, Option.some.inj h⟩
    · obtain ⟨d, hd, hunit⟩ := ih h
      exact ⟨d, List.mem_cons_of_mem _ hd, hunit⟩

theorem vocabulary_eq_some_iff {entries : Entries} (hnodup : (keys entries).Nodup) {key : String}
    {unit : UnitOfMeasure} :
    vocabulary entries key = some unit ↔ ∃ e ∈ entries, normalize e.1 = key ∧ e.2 = unit := by
  refine ⟨exists_entry_of_vocabulary, ?_⟩
  induction entries with
  | nil => simp
  | cons e entries ih =>
    rw [keys_cons, List.nodup_cons] at hnodup
    obtain ⟨he, hnodup⟩ := hnodup
    rintro ⟨d, hd, hkey, hunit⟩
    rw [vocabulary_cons]
    rcases List.mem_cons.1 hd with rfl | hd
    · rw [if_pos hkey.symm, hunit]
    · rw [if_neg fun h => he (mem_keys_iff.2 ⟨d, hd, hkey.trans h⟩)]
      exact ih hnodup ⟨d, hd, hkey, hunit⟩

end Entries

/-! ### The entries of a definition -/

namespace Definition

/-- The texts that a definition answers to with a prefix. -/
def prefixedSpellings (d : Definition) (p : Prefix) : List String :=
  (p.name ++ d.name) :: d.symbols.map (p.symbol ++ ·) ++ d.aliases.map (p.name ++ ·)

/-- The unit with a prefix. -/
def prefixedUnit (d : Definition) (p : Prefix) : UnitOfMeasure :=
  .named (p.name ++ d.name) (d.factor * p.scale) d.dimension d.offset

/-- All texts that a definition answers to, with and without a prefix. -/
def strings (d : Definition) : List String :=
  d.spellings ++ d.family.prefixes.flatMap d.prefixedSpellings

/-- The same texts with the units that they stand for. -/
def entries (d : Definition) : Entries :=
  d.spellings.map (·, d.unit) ++
    d.family.prefixes.flatMap fun p => (d.prefixedSpellings p).map (·, d.prefixedUnit p)

theorem exposed_eq_entries (d : Definition) : d.exposed = d.entries := by
  simp only [exposed, forms, List.flatMap_cons, List.flatMap_map, entries]
  rfl

theorem keys_entries (d : Definition) : d.entries.keys = d.strings.map normalize := by
  simp [Entries.keys, entries, strings, List.map_flatMap, Function.comp_def]

theorem cases_of_mem_strings {d : Definition} {s : String} (h : s ∈ d.strings) :
    s ∈ d.spellings ∨ ∃ p ∈ d.family.prefixes, ∃ t ∈ d.spellings,
      s = p.name ++ t ∨ s = p.symbol ++ t := by
  refine (List.mem_append.1 h).imp_right fun hs => ?_
  obtain ⟨p, hp, hs⟩ := List.mem_flatMap.1 hs
  refine ⟨p, hp, ?_⟩
  simp only [prefixedSpellings, List.cons_append, List.mem_cons, List.mem_append,
    List.mem_map] at hs
  simp only [spellings, List.cons_append, List.mem_cons, List.mem_append]
  rcases hs with rfl | ⟨t, ht, rfl⟩ | ⟨t, ht, rfl⟩
  · exact ⟨d.name, .inl rfl, .inl rfl⟩
  · exact ⟨t, .inr (.inl ht), .inr rfl⟩
  · exact ⟨t, .inr (.inr ht), .inl rfl⟩

/-- A valid definition has no blank spelling and a positive factor, and no offset unless it is a
temperature. -/
theorem fault?_eq_none_iff {d : Definition} :
    d.fault? = none ↔ (∀ s ∈ d.spellings, isBlankText s = false) ∧ 0 < d.factor ∧
      (d.offset.isSome = true → d.dimension.isTemperature = true) := by
  unfold fault?
  constructor
  · -- the checks in their order; each one that passes leaves its condition
    intro h
    split at h
    · cases h
    · split at h
      · cases h
      · next hspellings =>
        split at h
        · cases h
        · next hfactor =>
          split at h
          · cases h
          · next hoffset =>
            exact ⟨by simpa using hspellings, Rat.not_le.1 hfactor, by simpa using hoffset⟩
  · rintro ⟨hspellings, hfactor, hoffset⟩
    have hname : isBlankText d.name = false := hspellings d.name (List.mem_cons_self ..)
    have hfind : d.spellings.find? isBlankText = none := by simpa using hspellings
    have hplaced : (d.offset.isSome && !d.dimension.isTemperature) = false := by
      simpa using hoffset
    rw [hname, hfind, hplaced]
    show (if d.factor ≤ 0 then _ else _) = _
    rw [if_neg (Rat.not_le.2 hfactor)]
    rfl

theorem validate_eq_ok_iff {d : Definition} {file : String} :
    d.validate file = .ok () ↔ d.fault? = none := by
  rw [validate]
  split <;> simp [*]

end Definition

/-! ### Tables -/

/-- The table consists of the entries, each under its own key. -/
structure UnitTable.Holds (table : UnitTable) (entries : Entries) : Prop where
  /-- No two entries have the same key. -/
  distinct : entries.keys.Nodup
  /-- A key stands for the unit of its entry. -/
  lookup : ∀ key, table[key]? = entries.vocabulary key
  /-- There are no other keys. -/
  size : table.size = entries.length

namespace UnitTable

theorem holds_empty : Holds ∅ [] where
  distinct := List.nodup_nil
  lookup := fun _ => by simp [Entries.vocabulary]
  size := by simp

theorem Holds.vocabulary_eq {table : UnitTable} {entries : Entries} (h : table.Holds entries) :
    table.vocabulary = entries.vocabulary := funext h.lookup

/-- The keys of the table are those of the entries. -/
theorem Holds.mem_iff {table : UnitTable} {entries : Entries} (h : table.Holds entries)
    {key : String} : key ∈ table ↔ key ∈ entries.keys := by
  rw [Std.TreeMap.mem_iff_isSome_getElem?, h.lookup, Option.isSome_iff_ne_none, Ne,
    Entries.vocabulary_eq_none_iff, not_not]

theorem Holds.insert {table : UnitTable} {entries : Entries} (h : table.Holds entries)
    {name : String} {unit : UnitOfMeasure} (hfree : table[normalize name]? = none) :
    Holds (table.insert (normalize name) unit) (entries ++ [(name, unit)]) where
  distinct := by
    -- what the table does not know is no key so far
    rw [h.lookup, Entries.vocabulary_eq_none_iff] at hfree
    rw [Entries.keys_append, List.nodup_append]
    refine ⟨h.distinct, by simp [Entries.keys], ?_⟩
    intro key hkey key' hkey' heq
    rw [heq, List.mem_singleton.1 hkey'] at hkey
    exact hfree hkey
  lookup := fun key => by
    rw [Std.TreeMap.getElem?_insert, Entries.vocabulary_append, Entries.vocabulary_cons,
      Entries.vocabulary_nil]
    by_cases hkey : key = normalize name
    · rw [if_pos (by simp [hkey]), if_pos hkey, hkey, ← h.lookup, hfree, Option.none_or]
    · rw [if_neg (by simpa using Ne.symm hkey), if_neg hkey, Option.or_none, h.lookup]
  size := by
    have hnot : table.contains (normalize name) = false := by
      rw [Std.TreeMap.contains_eq_isSome_getElem?, hfree, Option.isSome_none]
    rw [Std.TreeMap.size_insert, hnot, List.length_append, h.size]
    rfl

theorem Holds.of_add {table next : UnitTable} {entries : Entries} (h : table.Holds entries)
    {name : String} {unit : UnitOfMeasure} (hadd : table.add name unit = .ok next) :
    next.Holds (entries ++ [(name, unit)]) := by
  rw [add] at hadd
  split at hadd
  · cases hadd
  · next hfree =>
    obtain rfl := Except.ok.inj hadd
    exact h.insert hfree

theorem Holds.exists_add {table : UnitTable} {entries : Entries} (h : table.Holds entries)
    {name : String} (hfree : normalize name ∉ entries.keys) (unit : UnitOfMeasure) :
    ∃ next, table.add name unit = .ok next := by
  have hnone : table[normalize name]? = none := by
    rw [h.lookup, Entries.vocabulary_eq_none_iff]
    exact hfree
  exact ⟨table.insert (normalize name) unit, by simp only [add, hnone]⟩

theorem Holds.of_addAll {table last : UnitTable} {entries new : Entries} (h : table.Holds entries)
    (hadd : table.addAll new = .ok last) : last.Holds (entries ++ new) := by
  induction new generalizing table entries with
  | nil =>
    obtain rfl : table = last := Except.pure_eq_ok_iff.1 hadd
    rwa [List.append_nil]
  | cons e new ih =>
    rw [addAll, List.foldlM_cons, Except.bind_eq_ok_iff] at hadd
    obtain ⟨next, hnext, hrest⟩ := hadd
    have hlast := ih (h.of_add hnext) hrest
    rwa [List.append_assoc, List.singleton_append] at hlast

theorem Holds.exists_addAll {table : UnitTable} {entries new : Entries} (h : table.Holds entries)
    (hnodup : (entries ++ new).keys.Nodup) : ∃ last, table.addAll new = .ok last := by
  induction new generalizing table entries with
  | nil => exact ⟨table, rfl⟩
  | cons e new ih =>
    -- the next key is free, since all keys together are distinct
    have hfree : normalize e.1 ∉ entries.keys := by
      rw [Entries.keys_append, Entries.keys_cons, List.nodup_append] at hnodup
      exact fun hmem => hnodup.2.2 _ hmem _ (List.mem_cons_self ..) rfl
    obtain ⟨next, hnext⟩ := h.exists_add hfree e.2
    obtain ⟨last, hlast⟩ := ih (h.of_add hnext)
      (by rwa [List.append_assoc, List.singleton_append])
    exact ⟨last, Except.bind_eq_ok_iff.2 ⟨next, hnext, hlast⟩⟩

/-! ### Definitions -/

theorem Holds.of_addDefinitions {table last : UnitTable} {entries : Entries}
    (h : table.Holds entries) {definitions : List Definition}
    (hadd : definitions.foldlM addDefinition table = .ok last) :
    (∀ d ∈ definitions, d.fault? = none) ∧
      last.Holds (entries ++ definitions.flatMap Definition.entries) := by
  induction definitions generalizing table entries with
  | nil =>
    obtain rfl : table = last := Except.pure_eq_ok_iff.1 hadd
    simpa using h
  | cons d definitions ih =>
    rw [List.foldlM_cons, Except.bind_eq_ok_iff] at hadd
    obtain ⟨next, hnext, hrest⟩ := hadd
    rw [addDefinition, Except.bind_eq_ok_iff] at hnext
    obtain ⟨⟨⟩, hvalid, hentries⟩ := hnext
    rw [Except.mapError_eq_ok_iff] at hvalid
    rw [addUnit_eq_addAll, Definition.exposed_eq_entries] at hentries
    obtain ⟨hall, hlast⟩ := ih (h.of_addAll hentries) hrest
    rw [List.append_assoc] at hlast
    exact ⟨List.forall_mem_cons.2 ⟨Definition.validate_eq_ok_iff.1 hvalid, hall⟩, hlast⟩

theorem Holds.exists_addDefinitions {table : UnitTable} {entries : Entries}
    (h : table.Holds entries) {definitions : List Definition} (hvalid : ∀ d ∈ definitions, d.fault? = none)
    (hnodup : (entries ++ definitions.flatMap Definition.entries).keys.Nodup) :
    ∃ last, definitions.foldlM addDefinition table = .ok last := by
  induction definitions generalizing table entries with
  | nil => exact ⟨table, rfl⟩
  | cons d definitions ih =>
    rw [List.flatMap_cons, ← List.append_assoc] at hnodup
    -- the keys up to here are distinct as a part of all
    have hfront : (entries ++ d.entries).keys.Nodup := by
      rw [Entries.keys_append] at hnodup
      exact (List.nodup_append.1 hnodup).1
    obtain ⟨next, hnext⟩ := h.exists_addAll hfront
    obtain ⟨last, hlast⟩ := ih (h.of_addAll hnext) (List.forall_mem_cons.1 hvalid).2 hnodup
    have hd : d.validate Definition.inlineSource = .ok () :=
      Definition.validate_eq_ok_iff.2 (hvalid d (List.mem_cons_self ..))
    have hadd : table.addDefinition d = .ok next := by
      rw [addDefinition, hd, addUnit_eq_addAll, Definition.exposed_eq_entries]
      exact hnext
    exact ⟨last, Except.bind_eq_ok_iff.2 ⟨next, hadd, hlast⟩⟩

end UnitTable

/-! ### Aliases -/

/-- The aliases, taken in order, add the units: each target is read with the known
entries and those of the aliases in front of it. -/
inductive Resolved : Entries → List (String × String) → Entries → Prop
  /-- No alias adds nothing. -/
  | nil (known : Entries) : Resolved known [] []
  /-- The first alias adds the unit that its target stands for. -/
  | cons {known units : Entries} {name target : String} {unit : UnitOfMeasure}
      {aliases : List (String × String)} (head : known.vocabulary.readUnit target = .ok unit)
      (tail : Resolved (known ++ [(name, unit)]) aliases units) :
      Resolved known ((name, target) :: aliases) ((name, unit) :: units)

theorem Resolved.names_eq {known units : Entries} {aliases : List (String × String)}
    (h : Resolved known aliases units) : units.map Prod.fst = aliases.map Prod.fst := by
  induction h with
  | nil => rfl
  | cons _ _ ih => simp [ih]

theorem Resolved.keys_eq {known units : Entries} {aliases : List (String × String)}
    (h : Resolved known aliases units) : units.keys = aliases.map fun a => normalize a.1 := by
  have hnames := congrArg (List.map normalize) h.names_eq
  simpa [Entries.keys, List.map_map, Function.comp_def] using hnames

namespace UnitTable

/-- Enter aliases in order. -/
def addAliases (table : UnitTable) (aliases : List (String × String)) :
    Except (Failure UnitError) UnitTable :=
  aliases.foldlM (fun table a => table.addAlias a.1 a.2) table

theorem Holds.of_addAliases {table last : UnitTable} {known : Entries} (h : table.Holds known)
    {aliases : List (String × String)} (hadd : table.addAliases aliases = .ok last) :
    ∃ units, Resolved known aliases units ∧ last.Holds (known ++ units) := by
  -- the known entries grow with the table, so that later targets see earlier aliases
  induction aliases generalizing table known with
  | nil =>
    obtain rfl : table = last := Except.pure_eq_ok_iff.1 hadd
    exact ⟨[], .nil known, by rwa [List.append_nil]⟩
  | cons a aliases ih =>
    rw [addAliases, List.foldlM_cons, Except.bind_eq_ok_iff] at hadd
    obtain ⟨next, hnext, hrest⟩ := hadd
    rw [addAlias, h.vocabulary_eq] at hnext
    split at hnext
    · next unit hread =>
      obtain ⟨units, hunits, hlast⟩ := ih (h.of_add hnext) hrest
      rw [List.append_assoc, List.singleton_append] at hlast
      exact ⟨(a.1, unit) :: units, .cons hread hunits, hlast⟩
    · cases hnext

theorem Holds.exists_addAliases {table : UnitTable} {known units : Entries} (h : table.Holds known)
    {aliases : List (String × String)} (hresolved : Resolved known aliases units)
    (hnodup : (known ++ units).keys.Nodup) : ∃ last, table.addAliases aliases = .ok last := by
  induction hresolved generalizing table with
  | nil => exact ⟨table, rfl⟩
  | @cons known units name target unit aliases hread _ ih =>
    have hfree : normalize name ∉ known.keys := by
      rw [Entries.keys_append, Entries.keys_cons, List.nodup_append] at hnodup
      exact fun hmem => hnodup.2.2 _ hmem _ (List.mem_cons_self ..) rfl
    obtain ⟨next, hnext⟩ := h.exists_add hfree unit
    obtain ⟨last, hlast⟩ := ih (h.of_add hnext)
      (by rwa [List.append_assoc, List.singleton_append])
    have hadd : table.addAlias name target = .ok next := by
      rw [addAlias, h.vocabulary_eq, hread]
      exact hnext
    exact ⟨last, Except.bind_eq_ok_iff.2 ⟨next, hadd, hlast⟩⟩

end UnitTable

/-! ### Registries -/

namespace Registry

/-- The keys that definitions and aliases ask for: the normal spellings of all texts of
the definitions, then those of the aliases. -/
def keys (definitions : List Definition) (aliases : NameMap String) : List String :=
  (definitions.flatMap Definition.strings).map normalize ++
    aliases.entries.map fun a => normalize a.1

theorem keys_flatMap_entries (definitions : List Definition) :
    Entries.keys (definitions.flatMap Definition.entries) =
      (definitions.flatMap Definition.strings).map normalize := by
  rw [Entries.keys, List.map_flatMap, List.map_flatMap]
  exact congrArg (List.flatMap · definitions) (funext Definition.keys_entries)

theorem keys_eq {definitions : List Definition} {aliases : NameMap String} {units : Entries}
    (h : Resolved (definitions.flatMap Definition.entries) aliases.entries units) :
    Entries.keys (definitions.flatMap Definition.entries ++ units) = keys definitions aliases := by
  rw [Entries.keys_append, h.keys_eq, keys_flatMap_entries, keys]

/-- A registry that was built holds what its definitions expose and its resolved aliases. -/
theorem holds_of_build {definitions : List Definition} {aliases : NameMap String} {r : Registry}
    (h : build definitions aliases = .ok r) :
    r.definitions = definitions ∧ (∀ d ∈ definitions, d.fault? = none) ∧
      ∃ units, Resolved (definitions.flatMap Definition.entries) aliases.entries units ∧
        r.table.Holds (definitions.flatMap Definition.entries ++ units) := by
  rw [build, Except.bind_eq_ok_iff] at h
  obtain ⟨defined, hdefined, h⟩ := h
  obtain ⟨table, htable, h⟩ := Except.bind_eq_ok_iff.1 h
  obtain rfl := Except.pure_eq_ok_iff.1 h
  obtain ⟨hvalid, hholds⟩ := UnitTable.holds_empty.of_addDefinitions hdefined
  exact ⟨rfl, hvalid, hholds.of_addAliases htable⟩

theorem definitions_of_build {definitions : List Definition} {aliases : NameMap String}
    {r : Registry} (h : build definitions aliases = .ok r) : r.definitions = definitions :=
  (holds_of_build h).1

/-- What the definitions expose is found under its key. -/
theorem table_of_entry {definitions : List Definition} {aliases : NameMap String} {r : Registry}
    (h : build definitions aliases = .ok r) {name : String} {unit : UnitOfMeasure}
    (hentry : (name, unit) ∈ definitions.flatMap Definition.entries) :
    r.table[normalize name]? = some unit := by
  obtain ⟨-, -, units, -, hholds⟩ := holds_of_build h
  rw [hholds.lookup, Entries.vocabulary_eq_some_iff hholds.distinct]
  exact ⟨_, List.mem_append_left _ hentry, rfl, rfl⟩

/-- A registry that was built has the keys that were asked for. -/
theorem mem_table_iff {definitions : List Definition} {aliases : NameMap String} {r : Registry}
    (h : build definitions aliases = .ok r) {key : String} :
    key ∈ r.table ↔ key ∈ keys definitions aliases := by
  obtain ⟨-, -, units, hunits, hholds⟩ := holds_of_build h
  rw [hholds.mem_iff, keys_eq hunits]

theorem mem_keys_of_table {definitions : List Definition} {aliases : NameMap String} {r : Registry}
    (h : build definitions aliases = .ok r) {key : String} (hkey : key ∈ r.table) :
    key ∈ keys definitions aliases :=
  (mem_table_iff h).1 hkey

/-- Nothing but invalid definitions, equal keys and unreadable aliases keeps a registry
from being built. -/
theorem exists_build {definitions : List Definition} {aliases : NameMap String} {units : Entries}
    (hvalid : ∀ d ∈ definitions, d.fault? = none) (hnodup : (keys definitions aliases).Nodup)
    (hunits : Resolved (definitions.flatMap Definition.entries) aliases.entries units) :
    ∃ r, build definitions aliases = .ok r := by
  rw [← keys_eq hunits] at hnodup
  have hfront : (Entries.keys ([] ++ definitions.flatMap Definition.entries)).Nodup := by
    rw [Entries.keys_append] at hnodup
    exact (List.nodup_append.1 hnodup).1
  obtain ⟨defined, hdefined⟩ := UnitTable.holds_empty.exists_addDefinitions hvalid hfront
  obtain ⟨-, hholds⟩ := UnitTable.holds_empty.of_addDefinitions hdefined
  obtain ⟨table, htable⟩ := hholds.exists_addAliases hunits hnodup
  exact ⟨⟨table, definitions⟩,
    Except.bind_eq_ok_iff.2 ⟨defined, hdefined, Except.bind_eq_ok_iff.2 ⟨table, htable, rfl⟩⟩⟩

/-- **When a registry can be built, and what it is then.**  Building succeeds exactly for
valid definitions, distinct keys and aliases that can be read in order.  The registry then
has these keys and no others, each for the unit it was entered with; the prefixed ones stand
for the unit times the factor that the prefix has. -/
theorem build_exact (definitions : List Definition) (aliases : NameMap String) :
    ((∃ r, build definitions aliases = .ok r) ↔
      (∀ d ∈ definitions, d.validate Definition.inlineSource = .ok ()) ∧
        (keys definitions aliases).Nodup ∧
          ∃ units, Resolved (definitions.flatMap Definition.entries) aliases.entries units) ∧
    ∀ r, build definitions aliases = .ok r →
      r.definitions = definitions ∧
      r.size = (keys definitions aliases).length ∧
      (∀ key, key ∈ r.table ↔ key ∈ keys definitions aliases) ∧
      (∀ d ∈ definitions, ∀ s ∈ d.spellings, r.table[normalize s]? = some d.unit) ∧
      (∀ d ∈ definitions, ∀ p ∈ d.family.prefixes, p.factor = .ok p.scale ∧
        ∀ s ∈ d.prefixedSpellings p, r.table[normalize s]? = some (d.prefixedUnit p)) ∧
      ∃ units, Resolved (definitions.flatMap Definition.entries) aliases.entries units ∧
        ∀ e ∈ units, r.table[normalize e.1]? = some e.2 := by
  constructor
  · simp only [Definition.validate_eq_ok_iff]
    constructor
    · rintro ⟨r, hr⟩
      obtain ⟨-, hvalid, units, hunits, hholds⟩ := holds_of_build hr
      exact ⟨hvalid, keys_eq hunits ▸ hholds.distinct, units, hunits⟩
    · rintro ⟨hvalid, hnodup, units, hunits⟩
      exact exists_build hvalid hnodup hunits
  · intro r hr
    obtain ⟨hdefinitions, -, units, hunits, hholds⟩ := holds_of_build hr
    have hkeys := keys_eq hunits
    -- every entry is found under its key
    have hentry : ∀ e ∈ definitions.flatMap Definition.entries ++ units,
        r.table[normalize e.1]? = some e.2 := fun e he => by
      rw [hholds.lookup, Entries.vocabulary_eq_some_iff hholds.distinct]
      exact ⟨e, he, rfl, rfl⟩
    have hdefined : ∀ d ∈ definitions, ∀ e ∈ d.entries, r.table[normalize e.1]? = some e.2 :=
      fun d hd e he => hentry e (List.mem_append_left _ (List.mem_flatMap.2 ⟨d, hd, he⟩))
    refine ⟨hdefinitions, ?_, ?_, ?_, ?_, units, hunits, ?_⟩
    · rw [size, hholds.size, ← hkeys, Entries.keys, List.length_map]
    · intro key
      rw [Std.TreeMap.mem_iff_isSome_getElem?, hholds.lookup, Option.isSome_iff_ne_none, Ne,
        Entries.vocabulary_eq_none_iff, not_not, hkeys]
    · intro d hd s hs
      exact hdefined d hd (s, d.unit) (List.mem_append_left _ (List.mem_map.2 ⟨s, hs, rfl⟩))
    · refine fun d hd p hp => ⟨PrefixFamily.factor_eq_scale hp, fun s hs => ?_⟩
      refine hdefined d hd (s, d.prefixedUnit p) (List.mem_append_right _ ?_)
      exact List.mem_flatMap.2 ⟨p, hp, List.mem_map.2 ⟨s, hs, rfl⟩⟩
    · exact fun e he => hentry e (List.mem_append_right _ he)

/-- Metres, seconds and an alias for their quotient can be put together, and the alias
stands for the quotient. -/
theorem build_exact_speed :
    let metre : Definition := ⟨"metre", ["m"], ["meters"], 1, none, .base "length", .none⟩
    let second : Definition := ⟨"second", ["s"], [], 1, none, .base "time", .none⟩
    let aliases : NameMap String := .single "speed" "metre per second"
    ∃ r, build [metre, second] aliases = .ok r ∧ r.size = 6 ∧
      r.table[normalize "meters"]? = some metre.unit := by
  intro metre second aliases
  have hunits : Resolved ([metre, second].flatMap Definition.entries) aliases.entries
      [("speed", ⟨.ofList [("metre", 1), ("second", -1)], 1,
        .ofList [("length", 1), ("time", -1)], none⟩)] :=
    .cons (by decide +kernel) (.nil _)
  obtain ⟨hbuild, hcontents⟩ := build_exact [metre, second] aliases
  obtain ⟨r, hr⟩ := hbuild.2 ⟨by decide +kernel, by decide +kernel, _, hunits⟩
  obtain ⟨-, hsize, -, hspellings, -⟩ := hcontents r hr
  refine ⟨r, hr, hsize.trans (by decide +kernel), ?_⟩
  exact hspellings metre (by decide +kernel) "meters" (by decide +kernel)

end Registry

end ExactUnits
