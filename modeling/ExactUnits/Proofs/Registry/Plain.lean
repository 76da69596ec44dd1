import ExactUnits.Standard
import ExactUnits.Proofs.Normal.Plain
import ExactUnits.Proofs.Registry.Names

/-!
# Plain registries

The names of a plain registry are made of letters and underscores, none of its keys looks
like a product, a quotient or a power, and its dimensions have small exponents.  All of
this can be checked on the definitions and the aliases, before any key is spelled out: a
prefix and a text without blanks, numbers and marks make a key without any of them.

## Main definitions

* `Registry.Plain` — plain registries.
* `isPlainKey`, `Definition.isPlain` — the checks on a key and on a definition.

## Main results

* `Registry.plain_of_build` — plain definitions and aliases make a plain registry.
* `Registry.plain_standard` — **the standard registry is plain.**
-/

namespace ExactUnits

open Text

/-- Names and keys are plain, and dimensions have small exponents. -/
structure Registry.Plain (r : Registry) : Prop where
  /-- The canonical names are made of ASCII letters and underscores. -/
  names : ∀ d ∈ formsOf r.definitions, ∀ c ∈ d.name.toList, isNameChar c = true
  /-- No key has a star, a caret or a digit. -/
  marks : ∀ key ∈ r.table, ∀ c ∈ key.toList, c ≠ '*' ∧ c ≠ '^' ∧ c.isDigit = false
  /-- A key with a bar has a space. -/
  bars : ∀ key ∈ r.table, '/' ∈ key.toList → ' ' ∈ key.toList
  /-- The exponents of the dimensions are at most a thousand in either direction. -/
  dimensions : ∀ d ∈ r.definitions, ∀ x,
    -1000 ≤ d.dimension.exponent x ∧ d.dimension.exponent x ≤ 1000

/-! ### Keys -/

/-- Whether a key has no star, caret or digit, and a bar only if it has a space. -/
def isPlainKey (key : String) : Bool :=
  key.toList.all (fun c => c != '*' && c != '^' && !c.isDigit) &&
    (!key.toList.contains '/' || key.toList.contains ' ')

theorem isPlainKey_iff {key : String} :
    isPlainKey key = true ↔
      (∀ c ∈ key.toList, c ≠ '*' ∧ c ≠ '^' ∧ c.isDigit = false) ∧
        ('/' ∈ key.toList → ' ' ∈ key.toList) := by
  simp [isPlainKey, and_assoc, ← imp_iff_not_or]

/-- Whether a text has no blanks, numbers and marks. -/
def isClean (text : String) : Bool := text.toList.all isCleanChar

theorem isClean_append {a b : String} (ha : isClean a = true) (hb : isClean b = true) :
    isClean (a ++ b) = true := by
  unfold isClean
  rw [String.toList_append, List.all_append, Bool.and_eq_true]
  exact ⟨ha, hb⟩

theorem isPlainKey_of_isClean {text : String} (h : isClean text = true) :
    isPlainKey (normalize text) = true := by
  have hkey : ∀ c ∈ (normalize text).toList, isCleanChar c = true := by
    unfold normalize
    rw [String.toList_ofList]
    exact isCleanChar_of_mem_normalChars (List.all_eq_true.1 h)
  have hmark : ∀ d : Char, isCleanChar d = false → ∀ c ∈ (normalize text).toList, c ≠ d := by
    rintro d hd c hc rfl
    rw [hkey c hc] at hd
    cases hd
  refine isPlainKey_iff.2 ⟨fun c hc => ⟨?_, ?_, isDigit_of_isCleanChar (hkey c hc)⟩, fun hbar => ?_⟩
  · exact hmark '*' (by decide) c hc
  · exact hmark '^' (by decide) c hc
  · exact absurd rfl (hmark '/' (by decide) '/' hbar)

/-! ### Definitions -/

/-- The names and symbols of the prefixes are clean, and the names are plain. -/
theorem Prefix.isClean_of_mem {family : PrefixFamily} {p : Prefix} (h : p ∈ family.prefixes) :
    isClean p.name = true ∧ isClean p.symbol = true ∧ p.name.toList.all isNameChar = true := by
  have htables : (Prefix.metric ++ Prefix.binary).all (fun p =>
      isClean p.name && (isClean p.symbol && p.name.toList.all isNameChar)) = true := by
    decide +kernel
  simpa only [Bool.and_eq_true] using List.all_eq_true.1 htables p (PrefixFamily.mem_tables h)

/-- Whether the name is plain, the dimension has small exponents, and every spelling is
clean, or else takes no prefix and has a plain key. -/
def Definition.isPlain (d : Definition) : Bool :=
  d.name.toList.all isNameChar &&
    d.dimension.factors.all (fun p => -1000 ≤ p.2.toInt ∧ p.2.toInt ≤ 1000) &&
      d.spellings.all fun s => isClean s || d.family.prefixes.isEmpty && isPlainKey (normalize s)

variable {d : Definition}

theorem Definition.isPlain_iff :
    d.isPlain = true ↔
      (∀ c ∈ d.name.toList, isNameChar c = true) ∧
        (∀ p ∈ d.dimension.factors, -1000 ≤ p.2.toInt ∧ p.2.toInt ≤ 1000) ∧
          ∀ s ∈ d.spellings,
            isClean s = true ∨ d.family.prefixes = [] ∧ isPlainKey (normalize s) = true := by
  simp [isPlain, and_assoc]

theorem Definition.isPlainKey_of_isPlain (h : d.isPlain = true) {s : String} (hs : s ∈ d.strings) :
    isPlainKey (normalize s) = true := by
  obtain ⟨-, -, hspellings⟩ := isPlain_iff.1 h
  rcases cases_of_mem_strings hs with hs | ⟨p, hp, t, ht, hs⟩
  · rcases hspellings s hs with hclean | ⟨-, hkey⟩
    · exact isPlainKey_of_isClean hclean
    · exact hkey
  · obtain ⟨hname, hsymbol, -⟩ := Prefix.isClean_of_mem hp
    -- a definition that takes a prefix has clean spellings only
    have hclean : isClean t = true := by
      refine (hspellings t ht).resolve_right fun hnone => ?_
      rw [hnone.1] at hp
      cases hp
    rcases hs with rfl | rfl
    · exact isPlainKey_of_isClean (isClean_append hname hclean)
    · exact isPlainKey_of_isClean (isClean_append hsymbol hclean)

theorem isNameChar_of_form {definitions : List Definition}
    (hdefinitions : ∀ d ∈ definitions, d.isPlain = true) (hd : d ∈ formsOf definitions) :
    ∀ c ∈ d.name.toList, isNameChar c = true := by
  rcases mem_formsOf_iff.1 hd with hd | ⟨origin, horigin, p, hp, rfl⟩
  · exact (Definition.isPlain_iff.1 (hdefinitions d hd)).1
  · intro c hc
    change c ∈ (p.name ++ origin.name).toList at hc
    rw [String.toList_append, List.mem_append] at hc
    rcases hc with hc | hc
    · exact List.all_eq_true.1 (Prefix.isClean_of_mem hp).2.2 c hc
    · exact (Definition.isPlain_iff.1 (hdefinitions origin horigin)).1 c hc

/-! ### Registries -/

namespace Registry

variable {definitions : List Definition} {aliases : NameMap String} {r : Registry}

/-- **Plain definitions and aliases make a plain registry.** -/
theorem plain_of_build (h : build definitions aliases = .ok r)
    (hdefinitions : definitions.all Definition.isPlain = true)
    (haliases : aliases.entries.all (fun a => isPlainKey (normalize a.1)) = true) : r.Plain := by
  have heq := definitions_of_build h
  rw [List.all_eq_true] at hdefinitions haliases
  -- every key comes from a definition or from an alias
  have hkeys : ∀ key ∈ r.table, isPlainKey key = true := by
    intro key hkey
    rcases List.mem_append.1 (mem_keys_of_table h hkey) with hkey | hkey
    · obtain ⟨s, hs, rfl⟩ := List.mem_map.1 hkey
      obtain ⟨d, hd, hs⟩ := List.mem_flatMap.1 hs
      exact Definition.isPlainKey_of_isPlain (hdefinitions d hd) hs
    · obtain ⟨a, ha, rfl⟩ := List.mem_map.1 hkey
      exact haliases a ha
  refine ⟨fun f hf => ?_, fun key hkey => (isPlainKey_iff.1 (hkeys key hkey)).1,
    fun key hkey => (isPlainKey_iff.1 (hkeys key hkey)).2, fun d hd => ?_⟩
  · rw [heq] at hf
    exact isNameChar_of_form hdefinitions hf
  · rw [heq] at hd
    exact (Monomial.forall_factors_iff (P := fun n => -1000 ≤ n ∧ n ≤ 1000) (by decide)).1
      (Definition.isPlain_iff.1 (hdefinitions d hd)).2.1

/-- **The standard registry is plain.** -/
theorem plain_standard (h : standard = .ok r) : r.Plain :=
  plain_of_build h (by decide +kernel) (by decide +kernel)

end Registry

end ExactUnits
