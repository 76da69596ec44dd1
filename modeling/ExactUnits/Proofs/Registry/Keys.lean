import ExactUnits.Proofs.Normal.Form
import ExactUnits.Proofs.Registry.Contents
import ExactUnits.Proofs.Vocabulary.Reading

/-!
# The keys of a registry

The keys are the normal spellings of the names that were entered, and since the normal spelling
of a key is the key itself, a key is found by looking itself up, as a name and as an
expression.  The one exception is the empty key, which no expression is read as.  The names in
definitions are checked for it, with and without a prefix, and those of aliases are not.

## Main results

* `Definition.isBlankText_of_mem_strings` — the names of a valid definition are not blank.
* `Registry.empty_mem_table_iff` — only a blank alias makes an empty key.
* `Registry.entries_answer` — **every key answers to itself, unless it is empty.**
-/

namespace ExactUnits

open Text

/-- A text in normal form is read as it is. -/
theorem Vocabulary.readUnit_of_isNormal {vocabulary : Vocabulary} {text : String}
    (h : IsNormal text.toList) : vocabulary.readUnit text = vocabulary.readNormal text text.toList := by
  unfold readUnit readChars
  rw [normalChars_eq_self_iff.2 h, String.ofList_toList]

/-- A blank text is not read. -/
theorem Vocabulary.readUnit_of_blank {text : String} (h : isAllBlank text.toList = true)
    (vocabulary : Vocabulary) : vocabulary.readUnit text = .error (.unknown text) := by
  unfold readUnit readChars
  rw [normalChars_eq_nil_iff.2 h, String.ofList_toList]
  rfl

/-! ### Blank names -/

namespace Definition

theorem isBlankText_append {a b : String} (h : isBlankText b = false) :
    isBlankText (a ++ b) = false := by
  unfold isBlankText isAllBlank at h ⊢
  rw [String.toList_append, List.all_append, h, Bool.and_false]

/-- **The names of a valid definition are not blank**, with and without a prefix. -/
theorem isBlankText_of_mem_strings {d : Definition} {s : String} (h : d.fault? = none)
    (hs : s ∈ d.strings) : isBlankText s = false := by
  obtain ⟨hspellings, -⟩ := fault?_eq_none_iff.1 h
  rcases cases_of_mem_strings hs with hs | ⟨p, -, t, ht, rfl | rfl⟩
  · exact hspellings s hs
  · exact isBlankText_append (hspellings t ht)
  · exact isBlankText_append (hspellings t ht)

end Definition

/-! ### Keys -/

namespace Registry

variable {definitions : List Definition} {aliases : NameMap String} {r : Registry} {key : String}
  {u : UnitOfMeasure}

/-- The entries that are listed are those that are found. -/
theorem mem_entries_iff : (key, u) ∈ r.entries ↔ r.table[key]? = some u :=
  Std.TreeMap.mem_toList_iff_getElem?_eq_some

theorem unit_of_table {text : String} (h : r.table[normalize text]? = some u) :
    r.unit text = .ok u := by
  unfold unit
  rw [h]

theorem mem_table (h : r.table[key]? = some u) : key ∈ r.table := by
  rw [Std.TreeMap.mem_iff_isSome_getElem?, h]
  rfl

/-- The keys are in normal form. -/
theorem isNormal_of_table (h : build definitions aliases = .ok r) (hkey : r.table[key]? = some u) :
    IsNormal key.toList := by
  rcases List.mem_append.1 (mem_keys_of_table h (mem_table hkey)) with hmem | hmem
  · obtain ⟨s, -, rfl⟩ := List.mem_map.1 hmem
    exact isNormal_normalize s
  · obtain ⟨a, -, rfl⟩ := List.mem_map.1 hmem
    exact isNormal_normalize a.1

/-- A key is read as its unit, unless it is empty. -/
theorem readUnit_key (h : build definitions aliases = .ok r) (hkey : r.table[key]? = some u)
    (hnil : key.toList ≠ []) : r.readUnit key = .ok u := by
  have hfind : r.vocabulary.find? key.toList = some u := by
    rw [Vocabulary.find?_toList]
    exact hkey
  unfold readUnit
  rw [Vocabulary.readUnit_of_isNormal (isNormal_of_table h hkey)]
  exact Vocabulary.readNormal_of_find? hnil hfind

theorem readUnit_of_table {text : String} (hvisible : isAllBlank text.toList = false)
    (h : r.table[normalize text]? = some u) : r.readUnit text = .ok u := by
  have hnil : normalChars text.toList ≠ [] := fun hnil => by
    rw [normalChars_eq_nil_iff.1 hnil] at hvisible
    cases hvisible
  have hfind : r.vocabulary.find? (normalChars text.toList) = some u := by
    unfold Vocabulary.find?
    exact h
  unfold readUnit Vocabulary.readUnit Vocabulary.readChars
  exact Vocabulary.readNormal_of_find? hnil hfind

/-- **Only a blank alias makes an empty key.** -/
theorem empty_mem_table_iff (h : build definitions aliases = .ok r) :
    "" ∈ r.table ↔ ∃ a ∈ aliases.entries, Definition.isBlankText a.1 = true := by
  obtain ⟨-, hvalid, -⟩ := holds_of_build h
  rw [mem_table_iff h, keys, List.mem_append, List.mem_map, List.mem_map]
  constructor
  · rintro (⟨s, hs, hempty⟩ | ⟨a, ha, hempty⟩)
    · -- the names of the definitions are not blank
      obtain ⟨d, hd, hs⟩ := List.mem_flatMap.1 hs
      have hvisible := Definition.isBlankText_of_mem_strings (hvalid d hd) hs
      have hblank : Definition.isBlankText s = true := normalize_eq_empty_iff.1 hempty
      rw [hvisible] at hblank
      cases hblank
    · exact ⟨a, ha, normalize_eq_empty_iff.1 hempty⟩
  · rintro ⟨a, ha, hblank⟩
    exact .inr ⟨a, ha, normalize_eq_empty_iff.2 hblank⟩

/-- **Every key answers to itself, unless it is empty.**  A listed key is its own normal spelling,
it is contained, and it is looked up as its unit; and it is read as its unit exactly if it is not
empty.  No key is empty exactly if no alias is blank. -/
theorem entries_answer (h : build definitions aliases = .ok r) :
    (∀ e ∈ r.entries, normalize e.1 = e.1 ∧ r.contains e.1 = true ∧ r.unit e.1 = .ok e.2 ∧
      (r.readUnit e.1 = .ok e.2 ↔ e.1 ≠ "")) ∧
      ((∀ e ∈ r.entries, e.1 ≠ "") ↔
        ∀ a ∈ aliases.entries, Definition.isBlankText a.1 = false) := by
  constructor
  · rintro ⟨key, u⟩ he
    have hkey : r.table[key]? = some u := mem_entries_iff.1 he
    -- keys are stored in normal form, so looking them up finds them
    have hself : normalize key = key := normalize_eq_self_iff.2 (isNormal_of_table h hkey)
    refine ⟨hself, ?_, unit_of_table (by rw [hself, hkey]), ?_, fun hempty => ?_⟩
    · unfold contains
      rw [hself, ← Std.TreeMap.mem_iff_contains]
      exact mem_table hkey
    · rintro hread rfl
      unfold readUnit at hread
      rw [Vocabulary.readUnit_of_blank rfl] at hread
      cases hread
    · exact readUnit_key h hkey fun hnil => hempty (String.toList_inj.1 hnil)
  · have hkeys : (∀ e ∈ r.entries, e.1 ≠ "") ↔ "" ∉ r.table := by
      constructor
      · intro hall hmem
        rw [Std.TreeMap.mem_iff_isSome_getElem?, Option.isSome_iff_exists] at hmem
        obtain ⟨u, hu⟩ := hmem
        exact hall ("", u) (mem_entries_iff.2 hu) rfl
      · rintro hnot ⟨key, u⟩ he rfl
        exact hnot (mem_table (mem_entries_iff.1 he))
    rw [hkeys, empty_mem_table_iff h]
    simp only [not_exists, not_and, Bool.not_eq_true]

/-- With metres and seconds, an alias that is named like a quotient has a key with a bar, which is
read as a whole. -/
theorem entries_answer_quotient :
    let metre : Definition := ⟨"metre", ["m"], [], 1, none, .base "length", .none⟩
    let second : Definition := ⟨"second", ["s"], [], 1, none, .base "time", .none⟩
    let unit : UnitOfMeasure :=
      ⟨.ofList [("metre", 1), ("second", -2)], 1, .ofList [("length", 1), ("time", -2)], none⟩
    ∃ r, build [metre, second] (.single "meter  per second " "m/s^2") = .ok r ∧
      ("metre/second", unit) ∈ r.entries ∧ r.unit "metre/second" = .ok unit ∧
        r.readUnit "metre/second" = .ok unit := by
  intro metre second unit
  have hlookup : (build [metre, second] (.single "meter  per second " "m/s^2") >>= fun r =>
      .ok r.table["metre/second"]?) = .ok (some unit) := by decide +kernel
  obtain ⟨r, hr, hkey⟩ := Except.bind_eq_ok_iff.1 hlookup
  have hentry : ("metre/second", unit) ∈ r.entries := mem_entries_iff.2 (Except.ok.inj hkey)
  obtain ⟨-, -, hunit, hread⟩ := (entries_answer hr).1 _ hentry
  exact ⟨r, hr, hentry, hunit, hread.2 (by decide +kernel)⟩

/-- An alias whose name is a space makes an empty key, which is listed and looked up, but no
unit can be read from it. -/
theorem entries_answer_blank :
    let metre : Definition := ⟨"metre", [], [], 1, none, .base "length", .none⟩
    ∃ r, build [metre] (.single " " "metre") = .ok r ∧ ("", metre.unit) ∈ r.entries ∧
      r.contains "" = true ∧ r.unit "" = .ok metre.unit ∧
        r.readUnit "" = .error (.unknown "") := by
  intro metre
  have hlookup : (build [metre] (.single " " "metre") >>= fun r =>
      .ok (r.table[""]?, r.contains "", r.unit "", r.readUnit "")) =
        .ok (some metre.unit, true, .ok metre.unit, .error (.unknown "")) := by decide +kernel
  obtain ⟨r, hr, hresults⟩ := Except.bind_eq_ok_iff.1 hlookup
  simp only [Except.ok.injEq, Prod.mk.injEq] at hresults
  obtain ⟨hkey, hcontains, hunit, hread⟩ := hresults
  exact ⟨r, hr, mem_entries_iff.2 hkey, hcontains, hunit, hread⟩

end Registry

end ExactUnits
