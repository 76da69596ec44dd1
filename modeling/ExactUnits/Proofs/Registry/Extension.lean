import Mathlib.Data.List.Sort
import ExactUnits.Proofs.Registry.Keys
import ExactUnits.Proofs.Vocabulary.Extension

/-!
# Registries with more entries

A registry may be extended by definitions and aliases.  Its own aliases are then resolved at
other moments, with entries in front of them that were not there before.  They stand for the
same units nevertheless, as long as the new keys are atomic: the two registries are built side
by side, and whenever an alias of the smaller one has its turn in both, its target is read with
vocabularies of which one extends the other.

## Main results

* `NameMap.sublist_entries` — the entries of a larger map include those of a smaller one in order.
* `Entries.extends_vocabulary` — entries with new atomic keys extend a vocabulary.
* `Resolved.subset` — aliases are resolved alike among more entries and aliases.
* `Resolved.readUnit_target` — an alias stands for its target also when all are resolved.
* `Registry.exists_build_of_words` — a registry can be built if its aliases are read with a part
  of its entries.
* `Registry.readUnit_of_extension` — **extending a registry does not change what a text means.**
-/

namespace ExactUnits

/-- A larger map has the entries of a smaller one, in the same order. -/
theorem NameMap.sublist_entries {α : Type} {a b : NameMap α}
    (h : ∀ name value, a.find? name = some value → b.find? name = some value) :
    a.entries.Sublist b.entries := by
  have hantisymm : Std.Antisymm fun x y : String × α => x.1 < y.1 :=
    ⟨fun _ _ hxy hyx => absurd hyx (String.lt_asymm hxy)⟩
  have hirrefl : Std.Irrefl fun x y : String × α => x.1 < y.1 := ⟨fun _ => String.lt_irrefl _⟩
  have hsubset : a.entries ⊆ b.entries := by
    rintro ⟨name, value⟩ he
    exact find?_eq_some_iff.1 (h name value (find?_eq_some_iff.2 he))
  exact List.sublist_of_subperm_of_pairwise (List.subperm_of_subset a.ascending.nodup hsubset)
    a.ascending b.ascending

/-! ### Entries -/

namespace Entries

variable {known known' : Entries}

theorem vocabulary_of_subset (hsubset : known ⊆ known') (hdistinct : known'.keys.Nodup)
    {key : String} {u : UnitOfMeasure} (h : known.vocabulary key = some u) :
    known'.vocabulary key = some u := by
  obtain ⟨e, he, hkey, hunit⟩ := exists_entry_of_vocabulary h
  exact (vocabulary_eq_some_iff hdistinct).2 ⟨e, hsubset he, hkey, hunit⟩

/-- **Entries with new atomic keys extend a vocabulary.** -/
theorem extends_vocabulary (hsubset : known ⊆ known') (hdistinct : known'.keys.Nodup)
    (hfresh : ∀ key ∈ known'.keys, key ∈ known.keys ∨ IsAtomic key.toList) :
    Vocabulary.Extends known'.vocabulary known.vocabulary where
  known := fun _ _ => vocabulary_of_subset hsubset hdistinct
  fresh := by
    intro key u hu
    obtain ⟨e, he, hkey, -⟩ := exists_entry_of_vocabulary hu
    refine (hfresh key (mem_keys_iff.2 ⟨e, he, hkey⟩)).imp_left fun hmem => ?_
    obtain ⟨v, hv⟩ : ∃ v, known.vocabulary key = some v :=
      Option.ne_none_iff_exists'.1 fun hnone => vocabulary_eq_none_iff.1 hnone hmem
    rw [hv]
    exact (vocabulary_of_subset hsubset hdistinct hv).symm.trans hu

end Entries

/-! ### Aliases -/

section Aliases

variable {known known' units units' : Entries} {aliases aliases' : List (String × String)}

/-- While aliases are resolved side by side, what is known to one side is known to the other. -/
theorem Resolved.extends_vocabulary (h : Resolved known aliases units)
    (h' : Resolved known' aliases' units') (haliases : aliases.Sublist aliases')
    (hknown : known ⊆ known') (hdistinct : (known' ++ units').keys.Nodup)
    (hfresh : ∀ key ∈ (known' ++ units').keys, key ∈ (known ++ units).keys ∨ IsAtomic key.toList) :
    Vocabulary.Extends known'.vocabulary known.vocabulary := by
  rw [Entries.keys_append, List.nodup_append] at hdistinct
  obtain ⟨hdistinct, -, hdisjoint⟩ := hdistinct
  refine Entries.extends_vocabulary hknown hdistinct fun key hkey => ?_
  rw [Entries.keys_append, Entries.keys_append] at hfresh
  refine (hfresh key (List.mem_append_left _ hkey)).imp_left fun hmem => ?_
  refine (List.mem_append.1 hmem).resolve_right fun hunits => ?_
  -- a key of an alias that is still to come is not known to the other side either
  have hunits' : key ∈ units'.keys := by
    rw [h.keys_eq] at hunits
    rw [h'.keys_eq]
    exact (haliases.map _).subset hunits
  exact hdisjoint key hkey key hunits' rfl

/-- **Aliases are resolved alike among more entries and aliases.** -/
theorem Resolved.subset (haliases : aliases.Sublist aliases') (h : Resolved known aliases units)
    (h' : Resolved known' aliases' units') (hknown : known ⊆ known')
    (hdistinct : (known' ++ units').keys.Nodup)
    (hfresh : ∀ key ∈ (known' ++ units').keys, key ∈ (known ++ units).keys ∨ IsAtomic key.toList) :
    known ++ units ⊆ known' ++ units' := by
  -- the invariant is about all keys there will be, so it does not change along the way
  induction haliases generalizing known known' units units' with
  | slnil =>
    cases h
    cases h'
    simpa using hknown
  | cons a haliases ih =>
    cases h' with
    | @cons _ units' name target unit _ head' tail' =>
      rw [List.append_cons] at hdistinct hfresh ⊢
      exact ih h tail' (List.subset_append_of_subset_left _ hknown) hdistinct hfresh
  | cons_cons a haliases ih =>
    have hextends := h.extends_vocabulary h' (haliases.cons_cons a) hknown hdistinct hfresh
    cases h with
    | @cons _ units name target unit _ head tail =>
      cases h' with
      | @cons _ units' _ _ unit' _ head' tail' =>
        obtain rfl : unit = unit' := Except.ok.inj ((hextends.readUnit head).symm.trans head')
        rw [List.append_cons known'] at hdistinct hfresh ⊢
        rw [List.append_cons known] at hfresh ⊢
        refine ih tail tail' (List.append_subset.2 ⟨?_, ?_⟩) hdistinct hfresh
        · exact List.subset_append_of_subset_left _ hknown
        · exact List.subset_append_right _ _

/-- **An alias stands for its target also when all aliases are resolved.** -/
theorem Resolved.readUnit_target (h : Resolved known aliases units)
    (hdistinct : (known ++ units).keys.Nodup) (hatomic : ∀ key ∈ units.keys, IsAtomic key.toList) :
    ∀ a ∈ aliases, ∃ u, (a.1, u) ∈ units ∧ (known ++ units).vocabulary.readUnit a.2 = .ok u := by
  induction h with
  | nil => exact fun a ha => absurd ha List.not_mem_nil
  | @cons known units name target unit aliases head tail ih =>
    refine List.forall_mem_cons.2 ⟨⟨unit, List.mem_cons_self .., ?_⟩, fun a ha => ?_⟩
    · -- this alias and those behind it have atomic keys
      refine Vocabulary.Extends.readUnit ?_ head
      refine Entries.extends_vocabulary (List.subset_append_left _ _) hdistinct fun key hkey => ?_
      rw [Entries.keys_append, List.mem_append] at hkey
      exact hkey.imp_right (hatomic key)
    · rw [List.append_cons] at hdistinct ⊢
      have hrest : ∀ key ∈ units.keys, IsAtomic key.toList :=
        fun key hkey => hatomic key (List.mem_cons_of_mem _ hkey)
      obtain ⟨u, hu, hread⟩ := ih hdistinct hrest a ha
      exact ⟨u, List.mem_cons_of_mem _ hu, hread⟩

/-- **Aliases can be resolved if their targets are read with a part of the entries**, and all other
keys are atomic. -/
theorem Resolved.exists_of_words {words : Entries} (hwords : words ⊆ known)
    (hdistinct : (known.keys ++ aliases.map fun a => normalize a.1).Nodup)
    (hfresh : ∀ key ∈ known.keys ++ aliases.map (fun a => normalize a.1),
      key ∈ words.keys ∨ IsAtomic key.toList)
    (hread : ∀ a ∈ aliases, ∃ u, words.vocabulary.readUnit a.2 = .ok u) :
    ∃ units, Resolved known aliases units := by
  induction aliases generalizing known with
  | nil => exact ⟨[], .nil known⟩
  | cons a aliases ih =>
    obtain ⟨⟨u, hu⟩, hread⟩ := List.forall_mem_cons.1 hread
    have hextends : Vocabulary.Extends known.vocabulary words.vocabulary :=
      Entries.extends_vocabulary hwords (List.nodup_append.1 hdistinct).1 fun key hkey =>
        hfresh key (List.mem_append_left _ hkey)
    -- the keys there will be stay the same when the first alias is entered
    have hkeys : (known ++ [(a.1, u)]).keys ++ aliases.map (fun a => normalize a.1) =
        known.keys ++ (a :: aliases).map fun a => normalize a.1 := by simp
    obtain ⟨units, hunits⟩ := ih (List.subset_append_of_subset_left _ hwords)
      (hkeys ▸ hdistinct) (hkeys ▸ hfresh) hread
    exact ⟨_, .cons (hextends.readUnit hu) hunits⟩

end Aliases

/-! ### Registries -/

namespace Registry

variable {definitions definitions' : List Definition} {aliases aliases' : NameMap String}
  {r r' : Registry}

/-- The larger registry has a vocabulary that extends the one of the smaller. -/
theorem extends_vocabulary (h : build definitions aliases = .ok r)
    (h' : build definitions' aliases' = .ok r') (hdefinitions : definitions ⊆ definitions')
    (haliases : ∀ name target, aliases.find? name = some target →
      aliases'.find? name = some target)
    (hfresh : ∀ key ∈ r'.table, key ∉ r.table → IsAtomic key.toList) :
    Vocabulary.Extends r'.vocabulary r.vocabulary := by
  obtain ⟨-, -, units, hunits, hholds⟩ := holds_of_build h
  obtain ⟨-, -, units', hunits', hholds'⟩ := holds_of_build h'
  have hkeys : ∀ key ∈ Entries.keys (definitions'.flatMap Definition.entries ++ units'),
      key ∈ Entries.keys (definitions.flatMap Definition.entries ++ units) ∨
        IsAtomic key.toList := by
    intro key hkey
    rw [← hholds.mem_iff, or_iff_not_imp_left]
    exact hfresh key (hholds'.mem_iff.2 hkey)
  have hdefined : definitions.flatMap Definition.entries ⊆
      definitions'.flatMap Definition.entries := by
    intro e he
    obtain ⟨d, hd, he⟩ := List.mem_flatMap.1 he
    exact List.mem_flatMap.2 ⟨d, hdefinitions hd, he⟩
  have hsubset := Resolved.subset (NameMap.sublist_entries haliases) hunits hunits' hdefined
    hholds'.distinct hkeys
  unfold vocabulary
  rw [hholds.vocabulary_eq, hholds'.vocabulary_eq]
  exact Entries.extends_vocabulary hsubset hholds'.distinct hkeys

/-- A registry can be built if the targets of its aliases are read with a part of its entries, and
all other keys are atomic. -/
theorem exists_build_of_words {words : Entries} (hvalid : ∀ d ∈ definitions, d.fault? = none)
    (hdistinct : (keys definitions aliases).Nodup)
    (hwords : words ⊆ definitions.flatMap Definition.entries)
    (hfresh : ∀ key ∈ keys definitions aliases, key ∈ words.keys ∨ IsAtomic key.toList)
    (hread : ∀ a ∈ aliases.entries, ∃ u, words.vocabulary.readUnit a.2 = .ok u) :
    ∃ r, build definitions aliases = .ok r := by
  have hkeys : keys definitions aliases = Entries.keys (definitions.flatMap Definition.entries) ++
      aliases.entries.map fun a => normalize a.1 := by rw [keys, keys_flatMap_entries]
  obtain ⟨units, hunits⟩ :=
    Resolved.exists_of_words hwords (hkeys ▸ hdistinct) (hkeys ▸ hfresh) hread
  exact exists_build hvalid hdistinct hunits

/-- **Extending a registry does not change what a text means.**  Let the definitions and the
aliases of one registry be among those of another one, and let the keys that are new there have
no stars, bars or digits.  Then every text that the one reads is read by the other as the same
unit.  And where the aliases have no such keys, each of them stands for what its target is read
as in the end, whatever the order in which they were resolved. -/
theorem readUnit_of_extension :
    (∀ definitions aliases r definitions' aliases' r',
      build definitions aliases = .ok r → build definitions' aliases' = .ok r' →
        definitions ⊆ definitions' →
        (∀ name target, aliases.find? name = some target →
          aliases'.find? name = some target) →
        (∀ key ∈ r'.table, key ∉ r.table → IsAtomic key.toList) →
        ∀ text u, r.readUnit text = .ok u → r'.readUnit text = .ok u) ∧
      ∀ definitions aliases r, build definitions aliases = .ok r →
        (∀ name target, aliases.find? name = some target → IsAtomic (normalize name).toList) →
        ∀ name target, aliases.find? name = some target →
          ∃ u, r.unit name = .ok u ∧ r.readUnit target = .ok u := by
  constructor
  · intro definitions aliases r definitions' aliases' r' h h' hdefinitions haliases hfresh text u
    exact (extends_vocabulary h h' hdefinitions haliases hfresh).readUnit
  · intro definitions aliases r h hatomic name target htarget
    obtain ⟨-, -, units, hunits, hholds⟩ := holds_of_build h
    have hkeys : ∀ key ∈ units.keys, IsAtomic key.toList := by
      rw [hunits.keys_eq, List.forall_mem_map]
      rintro ⟨name, target⟩ ha
      exact hatomic name target (NameMap.find?_eq_some_iff.2 ha)
    -- what the target was read with is a part of what there is in the end
    obtain ⟨u, hu, hread⟩ := hunits.readUnit_target hholds.distinct hkeys (name, target)
      (NameMap.find?_eq_some_iff.1 htarget)
    refine ⟨u, unit_of_table ?_, ?_⟩
    · rw [hholds.lookup, Entries.vocabulary_eq_some_iff hholds.distinct]
      exact ⟨(name, u), List.mem_append_right _ hu, rfl, rfl⟩
    · unfold readUnit vocabulary
      rw [hholds.vocabulary_eq]
      exact hread

/-- A registry of metres and minutes with an alias for their quotient is extended by seconds and
by an alias that is resolved first.  `speed*meter2/min` means the same there, and the new alias
stands for its target in the end. -/
theorem readUnit_of_extension_speed :
    let metre : Definition := ⟨"metre", ["m"], [], 1, none, .base "length", .none⟩
    let second : Definition := ⟨"second", ["s"], [], 1, none, .base "time", .none⟩
    let minute : Definition := ⟨"minute", ["min"], [], 60, none, .base "time", .none⟩
    let more : NameMap String := .ofList [("acceleration", "m/s2"), ("speed", "m/min")]
    let unit : UnitOfMeasure :=
      ⟨.ofList [("metre", 3), ("minute", -2)], mkRat 1 3600,
        .ofList [("length", 3), ("time", -2)], none⟩
    ∃ r r', build [metre, minute] (.single "speed" "m/min") = .ok r ∧
      build [metre, second, minute] more = .ok r' ∧
      r.readUnit "speed*meter2/min" = .ok unit ∧ r'.readUnit "speed*meter2/min" = .ok unit ∧
      ∃ u, r'.unit "acceleration" = .ok u ∧ r'.readUnit "m/s2" = .ok u := by
  intro metre second minute more unit
  have hread : (build [metre, minute] (.single "speed" "m/min") >>= fun r =>
      .ok (r.readUnit "speed*meter2/min")) = .ok (.ok unit) := by decide +kernel
  have hsize : (build [metre, second, minute] more >>= fun r' => .ok r'.size) = .ok 8 := by
    decide +kernel
  obtain ⟨r, hr, hu⟩ := Except.bind_eq_ok_iff.1 hread
  have hu := Except.ok.inj hu
  obtain ⟨r', hr', -⟩ := Except.bind_eq_ok_iff.1 hsize
  have hkeys : ∀ key ∈ keys [metre, second, minute] more, IsAtomic key.toList := by decide +kernel
  obtain ⟨hextension, halias⟩ := readUnit_of_extension
  refine ⟨r, r', hr, hr', hu, ?_, ?_⟩
  · refine hextension _ _ r _ _ r' hr hr' (by decide +kernel) ?_ ?_ _ _ hu
    · intro name target h
      have hname : (name, target) = ("speed", "m/min") :=
        List.mem_singleton.1 (NameMap.find?_eq_some_iff.1 h)
      obtain ⟨rfl, rfl⟩ := Prod.mk.inj hname
      decide +kernel
    · exact fun key hkey _ => hkeys key (mem_keys_of_table hr' hkey)
  · refine halias _ _ r' hr' (fun name target h => hkeys _ ?_) "acceleration" "m/s2" (by decide +kernel)
    refine List.mem_append_right _ (List.mem_map.2 ⟨(name, target), ?_, rfl⟩)
    exact NameMap.find?_eq_some_iff.1 h

end Registry

end ExactUnits
