import ExactUnits.Proofs.Normal.Form
import ExactUnits.Proofs.Normal.Plain
import ExactUnits.Proofs.Registry.Extension
import ExactUnits.Proofs.Registry.Names
import ExactUnits.Standard

/-!
# The standard registry

The standard definitions expose some fifteen hundred texts, and their registry can be built only if
no two of these have one key.  That is a finite fact, but not one to be evaluated as it stands:
spelling out all keys takes too long, and so does comparing every two of them.  Three remarks make
it small.  In most texts nothing is replaced, and it is enough to look at prefixes and spellings
for themselves.  Keys are distinct if their codes are, and the codes that occurred are the bits of
one number.  And the target of an alias is read with the few words that occur in it, which mean the
same among all the others.

## Main definitions

* `isSettled`, `keyChars` — texts that are their own key, and the key of a text.
* `textCode`, `distinctFrom` — the code of a text, and the check that codes are distinct.
* `Definition.isSteady`, `Definition.codes` — definitions whose prefixed texts are settled, and the
  codes of their keys.
* `Standard.words` — the entries that the standard aliases are read with.

## Main results

* `isNormal_of_isSettled`, `isSettled_append` — settled texts are in normal form, and those with a
  prefix are settled too.
* `nodup_of_distinctFrom` — the check is sound.
* `Registry.nodup_keys_of_codes` — keys are distinct if their codes are.
* `Registry.exists_standard` — **the standard registry can be built.**
-/

namespace ExactUnits

open Text

/-! ### Texts that are their own key -/

/-- Clean characters that no replacement looks for, but for the letters of the regional
spellings. -/
def isSettledChar (c : Char) : Bool :=
  isCleanChar c && !List.contains ['\u207a', '\u207b', '\u03bc'] c

/-- The regional spellings that are replaced. -/
def regionalWords : List (List Char) := ["meter".toList, "liter".toList]

/-- Whether nothing in the text is replaced. -/
def isSettled (text : List Char) : Bool :=
  text.all isSettledChar && regionalWords.all fun word => !decide (word <:+: text)

theorem isSettled_iff {text : List Char} :
    isSettled text = true ↔
      (∀ c ∈ text, isSettledChar c = true) ∧ ∀ word ∈ regionalWords, ¬ word <:+: text := by
  simp [isSettled]

theorem isCleanChar_of_isSettledChar {c : Char} (h : isSettledChar c = true) :
    isCleanChar c = true := by
  rw [isSettledChar, Bool.and_eq_true] at h
  exact h.1

/-- **Settled texts are in normal form.** -/
theorem isNormal_of_isSettled {text : List Char} (h : isSettled text = true) : IsNormal text := by
  obtain ⟨hsettled, hregional⟩ := isSettled_iff.1 h
  have hblank : ∀ c ∈ text, isBlank c = false := fun c hc =>
    isBlank_of_isCleanChar (isCleanChar_of_isSettledChar (hsettled c hc))
  -- every pattern has a character that is not settled, or is a regional spelling
  have htable : ∀ s ∈ spellings, s.pattern.toList.any (fun c => !isSettledChar c) = true ∨
      s.pattern.toList ∈ regionalWords := by decide +kernel
  refine ⟨SinglySpaced.of_forall hblank, fun s hs hoccurs => ?_⟩
  rcases htable s hs with hforeign | hword
  · obtain ⟨c, hc, hnot⟩ := List.any_eq_true.1 hforeign
    rw [hsettled c (hoccurs.subset hc)] at hnot
    cases hnot
  · exact hregional _ hword hoccurs

theorem isAtomic_of_isSettled {text : List Char} (h : isSettled text = true) : IsAtomic text := by
  intro c hc
  have hclean := isCleanChar_of_isSettledChar ((isSettled_iff.1 h).1 c hc)
  refine ⟨?_, ?_, isDigit_of_isCleanChar hclean⟩
  · rintro rfl
    exact absurd hclean (by decide)
  · rintro rfl
    exact absurd hclean (by decide)

/-- Whether the text begins like the rest of a regional spelling. -/
def opensRegional (text : List Char) : Bool :=
  regionalWords.any fun word => word.tails.any fun rest => !rest.isEmpty && rest.isPrefixOf text

theorem opensRegional_of_tail {word front back text : List Char} (hword : word ∈ regionalWords)
    (heq : word = front ++ back) (hback : back ≠ []) (h : back <+: text) :
    opensRegional text = true := by
  unfold opensRegional
  simp only [List.any_eq_true, Bool.and_eq_true, Bool.not_eq_true', List.isEmpty_eq_false_iff,
    List.isPrefixOf_iff_prefix]
  refine ⟨word, hword, back, ?_, hback, h⟩
  rw [List.mem_tails, heq]
  exact List.suffix_append front back

/-- **Settled texts can be put together**, unless the second one goes on with a regional
spelling. -/
theorem isSettled_append {front back : List Char} (hfront : isSettled front = true)
    (hback : isSettled back = true) (hopens : opensRegional back = false) :
    isSettled (front ++ back) = true := by
  rw [isSettled_iff] at hfront hback ⊢
  refine ⟨fun c hc => ?_, fun word hword hoccurs => ?_⟩
  · exact (List.mem_append.1 hc).elim (hfront.1 c) (hback.1 c)
  · rcases List.infix_append_iff_ne_nil.1 hoccurs with h | h | ⟨x, y, -, hy, hxy, -, h⟩
    · exact hfront.2 word hword h
    · exact hback.2 word hword h
    · rw [opensRegional_of_tail hword hxy hy h] at hopens
      cases hopens

/-- The normal spelling of a text, which is the text itself if it is settled. -/
def keyChars (text : List Char) : List Char := if isSettled text then text else normalChars text

theorem toList_normalize (text : String) : (normalize text).toList = keyChars text.toList := by
  rw [normalize, String.toList_ofList, keyChars]
  split
  · next h => exact normalChars_eq_self_iff.2 (isNormal_of_isSettled h)
  · rfl

theorem toList_normalize_of_isSettled {text : String} (h : isSettled text.toList = true) :
    (normalize text).toList = text.toList := by
  rw [toList_normalize, keyChars, if_pos h]

theorem isAtomic_normalize {text : String} (h : isSettled text.toList = true) :
    IsAtomic (normalize text).toList := by
  rw [toList_normalize_of_isSettled h]
  exact isAtomic_of_isSettled h

/-! ### Codes -/

/-- The code points of a text as digits. -/
def textCode : List Char → Nat
  | [] => 0
  | c :: text => c.toNat + 256 * textCode text

theorem textCode_append (front back : List Char) :
    textCode (front ++ back) = textCode front + Nat.pow 256 front.length * textCode back := by
  induction front with
  | nil => simp [textCode]
  | cons c front ih =>
    rw [List.cons_append, textCode, textCode, ih, List.length_cons, Nat.pow_eq, Nat.pow_eq, Nat.pow_succ]
    ring

/-- Whether the numbers are distinct, and none of them is the place of a bit of the mask. -/
def distinctFrom (mask : Nat) : List Nat → Bool
  | [] => true
  | n :: numbers => !mask.testBit n && distinctFrom (mask ||| 1 <<< n) numbers

theorem distinctFrom_sound {mask : Nat} {numbers : List Nat}
    (h : distinctFrom mask numbers = true) :
    numbers.Nodup ∧ ∀ n ∈ numbers, mask.testBit n = false := by
  induction numbers generalizing mask with
  | nil => simp
  | cons n numbers ih =>
    rw [distinctFrom, Bool.and_eq_true, Bool.not_eq_true'] at h
    obtain ⟨hnodup, hfree⟩ := ih h.2
    have hrest : ∀ m ∈ numbers, mask.testBit m = false ∧ n ≠ m := by
      intro m hm
      have hbits := hfree m hm
      rw [Nat.testBit_or, Nat.one_shiftLeft, Nat.testBit_two_pow, Bool.or_eq_false_iff,
        decide_eq_false_iff_not] at hbits
      exact hbits
    refine ⟨List.nodup_cons.2 ⟨fun hn => (hrest n hn).2 rfl, hnodup⟩, ?_⟩
    exact List.forall_mem_cons.2 ⟨h.1, fun m hm => (hrest m hm).1⟩

/-- The codes are compared modulo a number that tells the standard keys apart. -/
def codeModulus : Nat := 83759

/-! ### The keys of definitions -/

/-- The code of a text behind another one. -/
def joinedCode (front back : String) : Nat :=
  textCode front.toList + Nat.pow 256 front.toList.length * textCode back.toList

theorem joinedCode_eq (front back : String) :
    joinedCode front back = textCode (front ++ back).toList := by
  rw [String.toList_append, textCode_append, joinedCode]

/-- The code of the key of a text. -/
def keyCode (text : String) : Nat := textCode (keyChars text.toList)

theorem keyCode_eq (text : String) : keyCode text = textCode (normalize text).toList := by
  rw [keyCode, toList_normalize]

theorem keyCode_of_isSettled {text : String} (h : isSettled text.toList = true) :
    keyCode text = textCode text.toList := by
  rw [keyCode_eq, toList_normalize_of_isSettled h]

/-- The names and symbols of the prefixes are settled. -/
theorem Prefix.isSettled_of_mem {family : PrefixFamily} {p : Prefix} (hp : p ∈ family.prefixes) :
    isSettled p.name.toList = true ∧ isSettled p.symbol.toList = true := by
  have htables : (Prefix.metric ++ Prefix.binary).all (fun p =>
      isSettled p.name.toList && isSettled p.symbol.toList) = true := by decide +kernel
  simpa only [Bool.and_eq_true] using
    List.all_eq_true.1 htables p (PrefixFamily.mem_tables hp)

namespace Definition

variable {d : Definition}

/-- Whether the definition takes no prefix, or all its spellings can stand behind one without
anything being replaced. -/
def isSteady (d : Definition) : Bool :=
  d.family.prefixes.isEmpty ||
    d.spellings.all fun s => isSettled s.toList && !opensRegional s.toList

theorem isSettled_of_isSteady (h : d.isSteady = true) {p : Prefix} (hp : p ∈ d.family.prefixes)
    {s : String} (hs : s ∈ d.spellings) :
    isSettled (p.name ++ s).toList = true ∧ isSettled (p.symbol ++ s).toList = true := by
  obtain ⟨hname, hsymbol⟩ := Prefix.isSettled_of_mem hp
  rw [isSteady, Bool.or_eq_true, List.isEmpty_iff] at h
  rcases h with h | h
  · rw [h] at hp
    cases hp
  · have hspelling := List.all_eq_true.1 h s hs
    rw [Bool.and_eq_true, Bool.not_eq_true'] at hspelling
    rw [String.toList_append, String.toList_append]
    exact ⟨isSettled_append hname hspelling.1 hspelling.2,
      isSettled_append hsymbol hspelling.1 hspelling.2⟩

/-- The codes of the keys of the definition, with and without a prefix. -/
def codes (d : Definition) : List Nat :=
  d.spellings.map keyCode ++ d.family.prefixes.flatMap fun p =>
    joinedCode p.name d.name :: d.symbols.map (joinedCode p.symbol) ++
      d.aliases.map (joinedCode p.name)

/-- **The codes of a steady definition are those of its keys.** -/
theorem codes_eq (h : d.isSteady = true) : d.codes = d.strings.map keyCode := by
  have hprefixed : ∀ p ∈ d.family.prefixes, (d.prefixedSpellings p).map keyCode =
      joinedCode p.name d.name :: d.symbols.map (joinedCode p.symbol) ++
        d.aliases.map (joinedCode p.name) := by
    intro p hp
    have hname : ∀ s ∈ d.spellings, keyCode (p.name ++ s) = joinedCode p.name s := fun s hs =>
      (keyCode_of_isSettled (isSettled_of_isSteady h hp hs).1).trans (joinedCode_eq _ _).symm
    have hsymbol : ∀ s ∈ d.spellings, keyCode (p.symbol ++ s) = joinedCode p.symbol s := fun s hs =>
      (keyCode_of_isSettled (isSettled_of_isSteady h hp hs).2).trans (joinedCode_eq _ _).symm
    rw [spellings, List.forall_mem_append, List.forall_mem_cons] at hname hsymbol
    rw [prefixedSpellings, List.map_append, List.map_cons, hname.1.1, List.map_map, List.map_map,
      ← List.map_congr_left hsymbol.1.2, ← List.map_congr_left hname.2]
    rfl
  rw [codes, strings, List.map_append, List.map_flatMap, List.flatMap_def, List.flatMap_def,
    ← List.map_congr_left hprefixed]

end Definition

/-! ### Registries -/

namespace Registry

variable {definitions : List Definition} {aliases : NameMap String}

/-- The codes of the keys that are asked for. -/
def codes (definitions : List Definition) (aliases : NameMap String) : List Nat :=
  definitions.flatMap Definition.codes ++ aliases.entries.map fun a => keyCode a.1

/-- **Keys are distinct if their codes are.** -/
theorem nodup_keys_of_codes (hsteady : ∀ d ∈ definitions, d.isSteady = true)
    (h : distinctFrom 0 ((codes definitions aliases).map (· % codeModulus)) = true) :
    (keys definitions aliases).Nodup := by
  have hcodes : codes definitions aliases =
      (keys definitions aliases).map fun key => textCode key.toList := by
    have hdefined : definitions.flatMap Definition.codes =
        (definitions.flatMap Definition.strings).map keyCode := by
      rw [List.map_flatMap, List.flatMap_def, List.flatMap_def,
        List.map_congr_left fun d hd => Definition.codes_eq (hsteady d hd)]
    rw [codes, keys, hdefined, List.map_append, List.map_map, List.map_map]
    simp only [funext keyCode_eq, Function.comp_def]
  have hnodup := (distinctFrom_sound h).1.of_map
  rw [hcodes] at hnodup
  exact hnodup.of_map

end Registry

/-! ### The standard registry -/

namespace Standard

/-- The names of the definitions that the targets of the aliases are about, and of the only one that
has a key with a bar. -/
def wordNames : List String :=
  ["metre", "foot", "mile", "gram", "second", "minute", "hour", "turn", "pound_per_square_inch"]

/-- These definitions, and the prefixed forms that the targets are about. -/
def wordForms : List Definition :=
  (definitions.filter fun d => wordNames.contains d.name) ++
    (definitions.filter fun d => d.name == "metre").flatMap fun d =>
      (d.family.prefixes.filter fun p => ["kilo", "centi"].contains p.name).map d.prefixed

/-- The entries that the aliases are read with. -/
def words : Entries := wordForms.flatMap Definition.ownEntries

theorem words_subset : words ⊆ definitions.flatMap Definition.entries := by
  have hforms : ∀ d ∈ wordForms, d ∈ formsOf definitions := by
    intro d hd
    refine mem_formsOf_iff.2 ((List.mem_append.1 hd).imp (fun hd => (List.mem_filter.1 hd).1) ?_)
    intro hd
    obtain ⟨origin, horigin, hd⟩ := List.mem_flatMap.1 hd
    obtain ⟨p, hp, rfl⟩ := List.mem_map.1 hd
    exact ⟨origin, (List.mem_filter.1 horigin).1, p, (List.mem_filter.1 hp).1, rfl⟩
  intro e he
  obtain ⟨d, hd, he⟩ := List.mem_flatMap.1 he
  exact mem_entries_of_form (hforms d hd) he

theorem isSteady_of_mem {d : Definition} (hd : d ∈ definitions) : d.isSteady = true := by
  have hall : ∀ d ∈ definitions, d.isSteady = true := by decide +kernel
  exact hall d hd

/-- **Every standard key is atomic or one of the words.** -/
theorem cases_of_mem_keys {key : String} (h : key ∈ Registry.keys definitions aliases) :
    key ∈ words.keys ∨ IsAtomic key.toList := by
  have hown : definitions.all (fun d => d.spellings.all fun s => isSettled s.toList ||
      (decide (IsAtomic (keyChars s.toList)) || (words.map Prod.fst).contains s)) = true := by
    decide +kernel
  have haliases : aliases.entries.all (fun a => isSettled a.1.toList) = true := by decide +kernel
  rcases List.mem_append.1 h with h | h
  · obtain ⟨s, hs, rfl⟩ := List.mem_map.1 h
    obtain ⟨d, hd, hs⟩ := List.mem_flatMap.1 hs
    rcases Definition.cases_of_mem_strings hs with hs | ⟨p, hp, t, ht, hs⟩
    · -- the spellings that are not settled have spaces
      have hspelling := List.all_eq_true.1 (List.all_eq_true.1 hown d hd) s hs
      rw [Bool.or_eq_true, Bool.or_eq_true, decide_eq_true_eq, List.contains_iff_mem,
        List.mem_map] at hspelling
      rcases hspelling with hsettled | hatomic | ⟨e, he, rfl⟩
      · exact .inr (isAtomic_normalize hsettled)
      · rw [← toList_normalize] at hatomic
        exact .inr hatomic
      · exact .inl (Entries.mem_keys_iff.2 ⟨e, he, rfl⟩)
    · obtain ⟨hname, hsymbol⟩ := Definition.isSettled_of_isSteady (isSteady_of_mem hd) hp ht
      rcases hs with rfl | rfl
      · exact .inr (isAtomic_normalize hname)
      · exact .inr (isAtomic_normalize hsymbol)
  · obtain ⟨a, ha, rfl⟩ := List.mem_map.1 h
    exact .inr (isAtomic_normalize (List.all_eq_true.1 haliases a ha))

end Standard

/-- **The standard registry can be built.** -/
theorem Registry.exists_standard : ∃ r, standard = .ok r := by
  have hvalid : ∀ d ∈ Standard.definitions, d.fault? = none := by decide +kernel
  have hcodes : distinctFrom 0
      ((codes Standard.definitions Standard.aliases).map (· % codeModulus)) = true := by
    decide +kernel
  have hread : Standard.aliases.entries.all (fun a =>
      (Standard.words.vocabulary.readUnit a.2).isOk) = true := by decide +kernel
  -- distinct codes belong to distinct keys, and the targets need only the words
  refine exists_build_of_words hvalid
    (nodup_keys_of_codes (fun d => Standard.isSteady_of_mem) hcodes) Standard.words_subset
    (fun key => Standard.cases_of_mem_keys) fun a ha => ?_
  have hok := List.all_eq_true.1 hread a ha
  cases htarget : Standard.words.vocabulary.readUnit a.2 with
  | ok u => exact ⟨u, rfl⟩
  | error e =>
    rw [htarget] at hok
    cases hok

end ExactUnits
