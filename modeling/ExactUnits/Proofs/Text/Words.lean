import ExactUnits.Proofs.Text.Replacement

/-!
# Words and single spaces

Words that are joined make a singly spaced text: it has no blanks but single spaces
between other characters.  Such a text is again the joining of its words, and a
replacement that brings in no blanks keeps it singly spaced.

## Main definitions

* `SinglySpaced` — texts whose only blanks are single spaces inside.

## Main results

* `words_append_cons` — a blank separates the words on its two sides.
* `words_eq_nil_iff` — only a blank text has no words.
* `words_joinWords` — the words of words that are joined are these words.
* `singlySpaced_joinWords_words`, `SinglySpaced.joinWords_words` — **joining the words of a
  text makes it singly spaced, and changes nothing if it is.**
* `SinglySpaced.replaceAll` — replacements without blanks keep a text singly spaced.
-/

namespace ExactUnits.Text

/-! ### Words -/

/-- A blank separates the words on its two sides. -/
theorem words_append_cons {c : Char} (hc : isBlank c = true) (before after : List Char) :
    words (before ++ c :: after) = words before ++ words after := by
  unfold words
  rw [List.splitOnP_append_cons before after hc, List.filter_append]

theorem words_cons_of_blank {c : Char} (hc : isBlank c = true) (text : List Char) :
    words (c :: text) = words text :=
  words_append_cons hc [] text

theorem words_eq_singleton {word : List Char} (hnil : word ≠ [])
    (h : ∀ c ∈ word, isBlank c = false) : words word = [word] := by
  unfold words
  rw [List.splitOnP_eq_singleton h]
  simpa using hnil

theorem isBlank_of_mem_splitOnP {text part : List Char} (h : part ∈ text.splitOnP isBlank) :
    ∀ c ∈ part, isBlank c = false := by
  induction text generalizing part with
  | nil =>
    rw [List.splitOnP_nil, List.mem_singleton] at h
    subst h
    simp
  | cons d text ih =>
    rw [List.splitOnP_cons_eq_if_modifyHead] at h
    split at h
    · rcases List.mem_cons.1 h with rfl | h
      · simp
      · exact ih h
    · next hd =>
      -- the character joins the first of the parts that are there already
      obtain ⟨first, rest, hsplit⟩ :=
        List.exists_cons_of_ne_nil (List.splitOnP_ne_nil isBlank text)
      rw [hsplit] at ih h
      rw [List.modifyHead_cons] at h
      rcases List.mem_cons.1 h with rfl | h
      · intro c hc
        rcases List.mem_cons.1 hc with rfl | hc
        · simpa using hd
        · exact ih (List.mem_cons_self ..) c hc
      · exact ih (List.mem_cons_of_mem _ h)

theorem mem_words {text word : List Char} (h : word ∈ words text) :
    word ≠ [] ∧ ∀ c ∈ word, isBlank c = false := by
  obtain ⟨hpart, hnil⟩ := List.mem_filter.1 h
  exact ⟨by simpa using hnil, isBlank_of_mem_splitOnP hpart⟩

theorem words_eq_nil_iff {text : List Char} : words text = [] ↔ isAllBlank text = true := by
  induction text with
  | nil => exact iff_of_true rfl rfl
  | cons c text ih =>
    cases hc : isBlank c with
    | true =>
      rw [words_cons_of_blank hc, ih, isAllBlank, isAllBlank, List.all_cons, hc, Bool.true_and]
    | false =>
      -- the first word begins here
      obtain ⟨first, rest, hsplit⟩ :=
        List.exists_cons_of_ne_nil (List.splitOnP_ne_nil isBlank text)
      have hwords : words (c :: text) ≠ [] := by
        unfold words
        rw [List.splitOnP_cons_eq_if_modifyHead, hc, hsplit]
        exact List.cons_ne_nil _ _
      refine iff_of_false hwords ?_
      rw [isAllBlank, List.all_cons, hc]
      exact Bool.false_ne_true

theorem joinWords_ne_nil {parts : List (List Char)} (h : ∀ word ∈ parts, word ≠ [])
    (hparts : parts ≠ []) : joinWords parts ≠ [] := by
  obtain ⟨word, rest, rfl⟩ := List.exists_cons_of_ne_nil hparts
  have hword : word ≠ [] := h word (List.mem_cons_self ..)
  cases rest with
  | nil => simpa [joinWords] using hword
  | cons next rest => simp [joinWords, hword]

theorem joinWords_cons (word : List Char) {parts : List (List Char)} (hparts : parts ≠ []) :
    joinWords (word :: parts) = word ++ ' ' :: joinWords parts := by
  rw [joinWords, List.intercalate_cons_of_ne_nil hparts]
  simp [joinWords]

theorem joinWords_append {before after : List (List Char)} (hbefore : before ≠ [])
    (hafter : after ≠ []) :
    joinWords (before ++ after) = joinWords before ++ ' ' :: joinWords after := by
  induction before with
  | nil => exact absurd rfl hbefore
  | cons word before ih =>
    by_cases hlast : before = []
    · subst hlast
      rw [List.singleton_append, joinWords_cons word hafter]
      simp [joinWords]
    · have hrest : before ++ after ≠ [] := List.append_ne_nil_of_left_ne_nil hlast after
      rw [List.cons_append, joinWords_cons word hrest, joinWords_cons word hlast, ih hlast,
        List.append_assoc, List.cons_append]

theorem words_joinWords {parts : List (List Char)}
    (h : ∀ word ∈ parts, word ≠ [] ∧ ∀ c ∈ word, isBlank c = false) :
    words (joinWords parts) = parts := by
  induction parts with
  | nil => rfl
  | cons word parts ih =>
    rw [List.forall_mem_cons] at h
    obtain ⟨⟨hnil, hword⟩, hparts⟩ := h
    by_cases hlast : parts = []
    · subst hlast
      rw [joinWords, List.intercalate_singleton, words_eq_singleton hnil hword]
    · rw [joinWords_cons word hlast, words_append_cons isBlank_space,
        words_eq_singleton hnil hword, ih hparts, List.singleton_append]

/-! ### Blank ends -/

theorem words_append_of_blank {blanks : List Char} (hblanks : isAllBlank blanks = true)
    (text : List Char) : words (text ++ blanks) = words text := by
  cases blanks with
  | nil => rw [List.append_nil]
  | cons c blanks =>
    rw [isAllBlank, List.all_cons, Bool.and_eq_true] at hblanks
    rw [words_append_cons hblanks.1, words_eq_nil_iff.2 hblanks.2, List.append_nil]

theorem words_blank_append {blanks : List Char} (hblanks : isAllBlank blanks = true)
    (text : List Char) : words (blanks ++ text) = words text := by
  induction blanks with
  | nil => rfl
  | cons c blanks ih =>
    rw [isAllBlank, List.all_cons, Bool.and_eq_true] at hblanks
    rw [List.cons_append, words_cons_of_blank hblanks.1, ih hblanks.2]

/-- Blanks separate the words on their two sides. -/
theorem words_append_blanks_append {blanks : List Char} (hnil : blanks ≠ [])
    (hblanks : isAllBlank blanks = true) (before after : List Char) :
    words (before ++ (blanks ++ after)) = words before ++ words after := by
  obtain ⟨c, blanks, rfl⟩ := List.exists_cons_of_ne_nil hnil
  rw [isAllBlank, List.all_cons, Bool.and_eq_true] at hblanks
  rw [List.cons_append, words_append_cons hblanks.1, words_blank_append hblanks.2]

/-! ### Singly spaced texts -/

theorem space_notMem {text : List Char} (h : ∀ c ∈ text, isBlank c = false) : ' ' ∉ text := by
  intro hmem
  have hblank := h ' ' hmem
  rw [isBlank_space] at hblank
  cases hblank

/-- The only blanks are single spaces between other characters. -/
structure SinglySpaced (text : List Char) : Prop where
  /-- No blank stands in front. -/
  first : ∀ c ∈ text.head?, isBlank c = false
  /-- No blank stands at the end. -/
  last : ∀ c ∈ text.getLast?, isBlank c = false
  /-- Blanks are spaces. -/
  space : ∀ c ∈ text, isBlank c = true → c = ' '
  /-- No space is followed by another one. -/
  single : ¬ [' ', ' '] <:+: text

namespace SinglySpaced

theorem of_forall {text : List Char} (h : ∀ c ∈ text, isBlank c = false) : SinglySpaced text where
  first := fun c hc => h c (List.mem_of_mem_head? hc)
  last := fun c hc => h c (List.mem_of_getLast? hc)
  space := by
    intro c hc hblank
    rw [h c hc] at hblank
    cases hblank
  single := by
    intro hoccurs
    exact space_notMem h (hoccurs.subset (List.mem_cons_self ..))

/-- A word can be put in front. -/
theorem append_cons {word text : List Char} (hnil : word ≠ [])
    (hword : ∀ c ∈ word, isBlank c = false) (htext : text ≠ []) (h : SinglySpaced text) :
    SinglySpaced (word ++ ' ' :: text) where
  first := by
    intro c hc
    rw [List.head?_append_of_ne_nil _ hnil] at hc
    exact hword c (List.mem_of_mem_head? hc)
  last := by
    intro c hc
    rw [List.getLast?_append_of_ne_nil _ (List.cons_ne_nil _ _),
      List.getLast?_cons_of_ne_nil htext] at hc
    exact h.last c hc
  space := by
    intro c hc hblank
    rcases List.mem_append.1 hc with hc | hc
    · rw [hword c hc] at hblank
      cases hblank
    · rcases List.mem_cons.1 hc with rfl | hc
      · rfl
      · exact h.space c hc hblank
  single := by
    have hnot : ' ' ∉ word := space_notMem hword
    rw [List.infix_append_iff_ne_nil, List.infix_cons_iff]
    rintro (hoccurs | (hfirst | hoccurs) | ⟨front, back, hfront, -, heq, hsuffix, -⟩)
    · exact hnot (hoccurs.subset (List.mem_cons_self ..))
    · -- the text would begin with a space
      obtain ⟨-, rest, hrest⟩ := List.cons_prefix_cons.1 hfirst
      have hblank := h.first ' ' (by rw [← hrest]; rfl)
      rw [isBlank_space] at hblank
      cases hblank
    · exact h.single hoccurs
    · obtain ⟨c, front, rfl⟩ := List.exists_cons_of_ne_nil hfront
      obtain rfl : ' ' = c := (List.cons.inj heq).1
      exact hnot (hsuffix.subset (List.mem_cons_self ..))

/-- Singly spaced texts can stand on the two sides of a character that is not blank. -/
theorem append_visible_cons {before after : List Char} {c : Char} (hc : isBlank c = false)
    (hbefore : SinglySpaced before) (hafter : SinglySpaced after) :
    SinglySpaced (before ++ c :: after) where
  first := by
    intro d hd
    cases before with
    | nil =>
      obtain rfl : c = d := by simpa using hd
      exact hc
    | cons b before => exact hbefore.first d hd
  last := by
    intro d hd
    rw [List.getLast?_append_of_ne_nil _ (List.cons_ne_nil _ _), List.getLast?_cons] at hd
    obtain hd : after.getLast?.getD c = d := Option.some.inj hd
    -- the last character is that of the text behind, or the visible one if there is none
    cases hlast : after.getLast? with
    | none =>
      rw [hlast] at hd
      exact hd ▸ hc
    | some e =>
      rw [hlast] at hd
      exact hd ▸ hafter.last e hlast
  space := by
    intro d hd hblank
    rcases List.mem_append.1 hd with hd | hd
    · exact hbefore.space d hd hblank
    · rcases List.mem_cons.1 hd with rfl | hd
      · rw [hc] at hblank
        cases hblank
      · exact hafter.space d hd hblank
  single := by
    intro hoccurs
    -- two spaces would have to stand on one side of the character
    have hnot : c ∉ [' ', ' '] := by
      intro hmem
      obtain rfl : c = ' ' := by simpa using hmem
      rw [isBlank_space] at hc
      cases hc
    exact (infix_append_cons_of_notMem hnot hoccurs).elim hbefore.single hafter.single

/-- A word can be put directly behind. -/
theorem append_word {text word : List Char} (h : SinglySpaced text)
    (hword : ∀ c ∈ word, isBlank c = false) : SinglySpaced (text ++ word) := by
  cases word with
  | nil => rwa [List.append_nil]
  | cons c word =>
    rw [List.forall_mem_cons] at hword
    exact append_visible_cons hword.1 h (.of_forall hword.2)

/-- What stands behind a space is singly spaced, and so is not empty. -/
theorem of_append_cons {word text : List Char} (h : SinglySpaced (word ++ ' ' :: text)) :
    text ≠ [] ∧ SinglySpaced text := by
  have hnil : text ≠ [] := by
    rintro rfl
    have hblank := h.last ' ' (by simp)
    rw [isBlank_space] at hblank
    cases hblank
  have hsuffix : ' ' :: text <:+ word ++ ' ' :: text := List.suffix_append _ _
  refine ⟨hnil, ?_, ?_, ?_, ?_⟩
  · intro c hc
    -- a blank in front would make the space a double one
    by_contra hblank
    rw [Bool.not_eq_false] at hblank
    have hmem : c ∈ word ++ ' ' :: text := by simp [List.mem_of_mem_head? hc]
    obtain ⟨rest, rfl⟩ := List.head?_eq_some_iff.1 hc
    obtain rfl := h.space c hmem hblank
    have hdouble : [' ', ' '] <:+: ' ' :: ' ' :: rest := ⟨[], rest, rfl⟩
    exact h.single (hdouble.trans hsuffix.isInfix)
  · intro c hc
    refine h.last c ?_
    rwa [List.getLast?_append_of_ne_nil _ (List.cons_ne_nil _ _), List.getLast?_cons_of_ne_nil hnil]
  · intro c hc
    exact h.space c (by simp [hc])
  · intro hoccurs
    exact h.single ((List.infix_cons hoccurs).trans hsuffix.isInfix)

/-- **A singly spaced text is the joining of its words.** -/
theorem joinWords_words {text : List Char} (h : SinglySpaced text) :
    joinWords (words text) = text := by
  induction hlength : text.length using Nat.strong_induction_on generalizing text with
  | _ n ih =>
    by_cases hmem : ' ' ∈ text
    · -- the first word goes up to the first space
      obtain ⟨word, rest, rfl, hnot⟩ := List.eq_append_cons_of_mem hmem
      have hword : ∀ c ∈ word, isBlank c = false := by
        intro c hc
        by_contra hblank
        rw [Bool.not_eq_false] at hblank
        exact hnot (h.space c (by simp [hc]) hblank ▸ hc)
      have hnil : word ≠ [] := by
        rintro rfl
        have hblank := h.first ' ' rfl
        rw [isBlank_space] at hblank
        cases hblank
      obtain ⟨hrest, hspaced⟩ := h.of_append_cons
      have hshort : rest.length < n := by
        rw [← hlength, List.length_append, List.length_cons]
        omega
      have hjoin := ih _ hshort hspaced rfl
      have hwords : words rest ≠ [] := by
        intro hwords
        rw [hwords] at hjoin
        exact hrest hjoin.symm
      rw [words_append_cons isBlank_space, words_eq_singleton hnil hword, List.singleton_append,
        joinWords_cons word hwords, hjoin]
    · refine joinWords_words_eq_self fun c hc => ?_
      by_contra hblank
      rw [Bool.not_eq_false] at hblank
      exact hmem (h.space c hc hblank ▸ hc)

end SinglySpaced

/-- **Joining words makes a singly spaced text.** -/
theorem singlySpaced_joinWords {parts : List (List Char)}
    (h : ∀ word ∈ parts, word ≠ [] ∧ ∀ c ∈ word, isBlank c = false) :
    SinglySpaced (joinWords parts) := by
  induction parts with
  | nil => exact .of_forall (by simp [joinWords])
  | cons word parts ih =>
    rw [List.forall_mem_cons] at h
    obtain ⟨⟨hnil, hword⟩, hparts⟩ := h
    by_cases hempty : parts = []
    · subst hempty
      rw [joinWords, List.intercalate_singleton]
      exact .of_forall hword
    · have htext : joinWords parts ≠ [] :=
        joinWords_ne_nil (fun word hmem => (hparts word hmem).1) hempty
      rw [joinWords_cons word hempty]
      exact (ih hparts).append_cons hnil hword htext

theorem singlySpaced_joinWords_words (text : List Char) : SinglySpaced (joinWords (words text)) :=
  singlySpaced_joinWords fun _ => mem_words

/-! ### Replacements -/

section Replace

variable {pattern replacement : List Char}

theorem cases_of_getLast?_replaceAll (hpattern : pattern ≠ []) (hreplacement : replacement ≠ [])
    {text : List Char} {c : Char} (h : c ∈ (replaceAll pattern replacement text).getLast?) :
    c ∈ replacement ∨ c ∈ text.getLast? := by
  induction text using replace_induction hpattern with
  | nil => exact .inr h
  | found after ih =>
    rw [replaceAll_append hpattern, List.getLast?_append, Option.mem_def, Option.or_eq_some_iff] at h
    rcases h with h | ⟨-, h⟩
    · exact (ih h).imp_right List.mem_getLast?_append_of_mem_getLast?
    · exact .inl (List.mem_of_getLast? h)
  | kept d after hnot ih =>
    rw [replaceAll_cons_of_not_front hnot] at h
    -- a character that stays is the last one, or others are behind it
    by_cases hnil : after = []
    · subst hnil
      exact .inr h
    · rw [List.getLast?_cons_of_ne_nil (replaceAll_ne_nil hreplacement hnil)] at h
      rw [List.getLast?_cons_of_ne_nil hnil]
      exact ih h

/-- **A replacement that brings in no blanks keeps a text singly spaced.** -/
theorem SinglySpaced.replaceAll (hpattern : pattern ≠ []) (hreplacement : replacement ≠ [])
    (hblank : ∀ c ∈ replacement, isBlank c = false) {text : List Char} (h : SinglySpaced text) :
    SinglySpaced (replaceAll pattern replacement text) where
  first := by
    intro c hc
    obtain ⟨rest, hrest⟩ := List.head?_eq_some_iff.1 hc
    have hfront : [c] <+: Text.replaceAll pattern replacement text := ⟨rest, hrest.symm⟩
    rcases cases_of_singleton_prefix_replaceAll hpattern hreplacement hfront with ⟨hc, -⟩ | hc
    · exact hblank c (hc.subset (List.mem_singleton_self c))
    · obtain ⟨rest, rfl⟩ := hc
      exact h.first c rfl
  last := by
    intro c hc
    exact (cases_of_getLast?_replaceAll hpattern hreplacement hc).elim (hblank c) (h.last c)
  space := by
    intro c hc hc'
    rcases mem_replaceAll hc with hc | hc
    · rw [hblank c hc] at hc'
      cases hc'
    · exact h.space c hc hc'
  single := by
    -- two spaces have no character in common with what is brought in, so none begin in it
    have hapart : Apart [' ', ' '] replacement := by
      refine apart_of_disjoint (List.cons_ne_nil _ _) hreplacement fun c hc => ?_
      obtain rfl : c = ' ' := by simpa using hc
      exact space_notMem hblank
    exact not_infix_replaceAll hpattern (List.cons_ne_nil _ _) hapart (.inr h.single)

end Replace

end ExactUnits.Text
