import ExactUnits.Normal
import ExactUnits.Proofs.Text.Words

/-!
# The normal form

The replacements of the normal spelling are carried out once, in order.  That is enough:
each of them leaves no occurrence of its pattern, and none of those that follow makes one
again.  For most pairs this is so because the pattern does not overlap with what is brought
in.  The exceptions are the spaces around `*` and `/`, and there it matters that no space is
double.  So the normal spelling of a text is in a normal form, and texts in normal form are
their own normal spelling.

## Main definitions

* `IsNormal` — texts in normal form.
* `Spelling.Clears`, `Spelling.Keeps` — replacements that leave nothing of a pattern.

## Main results

* `Spelling.pairwise_keeps` — no replacement undoes what an earlier one has done.
* `normalChars_eq_self_iff` — **the texts in normal form are the normal spellings.**
* `normalize_eq_empty_iff` — only a blank text has an empty normal spelling.
* `normalize_isNormal` — **one pass reaches the normal form**, and a second one changes
  nothing.
-/

namespace ExactUnits

open Text

/-- A text in normal form: singly spaced, and without an occurrence of any pattern. -/
structure IsNormal (text : List Char) : Prop extends SinglySpaced text where
  /-- No pattern occurs. -/
  patterns : ∀ s ∈ spellings, ¬ s.pattern.toList <:+: text

namespace Spelling

/-! ### One replacement -/

/-- The pattern is not empty, and what is brought in is neither empty nor blank anywhere. -/
def IsVisible (s : Spelling) : Prop :=
  s.pattern.toList ≠ [] ∧ s.replacement.toList ≠ [] ∧ s.replacement.toList.any isBlank = false

instance (s : Spelling) : Decidable s.IsVisible := inferInstanceAs (Decidable (_ ∧ _ ∧ _))

theorem isVisible_of_mem {s : Spelling} (h : s ∈ spellings) : s.IsVisible := by
  have hall : ∀ s ∈ spellings, s.IsVisible := by decide +kernel
  exact hall s h

theorem IsVisible.apply {s : Spelling} (hs : s.IsVisible) {text : List Char}
    (h : SinglySpaced text) : SinglySpaced (s.apply text) := by
  obtain ⟨hpattern, hreplacement, hblank⟩ := hs
  refine h.replaceAll hpattern hreplacement ?_
  simpa using hblank

/-- In a singly spaced text nothing of the pattern is left. -/
def Clears (s : Spelling) : Prop :=
  ∀ text, SinglySpaced text → ¬ s.pattern.toList <:+: s.apply text

/-- In a singly spaced text without the pattern of `s` the replacement `t` makes no
occurrence of it. -/
def Keeps (s t : Spelling) : Prop :=
  ∀ text, SinglySpaced text → ¬ s.pattern.toList <:+: text → ¬ s.pattern.toList <:+: t.apply text

theorem clears_of_apart {s : Spelling} (hs : s.IsVisible)
    (hapart : Apart s.pattern.toList s.replacement.toList) : s.Clears := by
  intro text _
  exact not_infix_replaceAll hs.1 hs.1 hapart (.inl rfl)

theorem keeps_of_apart {s t : Spelling} (hs : s.IsVisible) (ht : t.IsVisible)
    (hapart : Apart s.pattern.toList t.replacement.toList) : s.Keeps t := by
  intro text _ habsent
  exact not_infix_replaceAll ht.1 hs.1 hapart (.inr habsent)

/-! ### The list of replacements -/

/-- The marks around which spaces are dropped. -/
def marks : List Char := ['*', '/']

theorem ne_space_of_mem_marks {mark : Char} (h : mark ∈ marks) : mark ≠ ' ' := by
  rintro rfl
  exact absurd h (by decide)

/-- **A replacement leaves nothing of its pattern.** -/
theorem clears_of_mem {s : Spelling} (h : s ∈ spellings) : s.Clears := by
  have hall : ∀ s ∈ spellings, Apart s.pattern.toList s.replacement.toList ∨
      marks.any (fun mark =>
        decide ((s.pattern.toList = [' ', mark] ∨ s.pattern.toList = [mark, ' ']) ∧
          s.replacement.toList = [mark])) = true := by decide +kernel
  simp only [List.any_eq_true, decide_eq_true_eq] at hall
  -- what is brought in has nothing of the pattern, or the pattern drops a space at a mark
  rcases hall s h with hapart | ⟨mark, hmark, hpattern | hpattern, hreplacement⟩
  · exact clears_of_apart (isVisible_of_mem h) hapart
  · intro text htext
    unfold apply
    rw [hpattern, hreplacement]
    exact not_infix_dropBefore (ne_space_of_mem_marks hmark) htext.single
  · intro text htext
    unfold apply
    rw [hpattern, hreplacement]
    exact not_infix_dropBehind (ne_space_of_mem_marks hmark) htext.single

/-- **No replacement undoes what an earlier one has done.** -/
theorem pairwise_keeps : spellings.Pairwise Keeps := by
  have hall : spellings.Pairwise fun s t => Apart s.pattern.toList t.replacement.toList ∨
      marks.any (fun mark =>
        decide (s.pattern.toList = [' ', mark] ∧ t.pattern.toList = [mark, ' '] ∧
          t.replacement.toList = [mark])) = true := by decide +kernel
  simp only [List.any_eq_true, decide_eq_true_eq] at hall
  refine hall.imp_of_mem ?_
  rintro s t hs ht (hapart | ⟨mark, hmark, hpattern, hpattern', hreplacement⟩)
  · exact keeps_of_apart (isVisible_of_mem hs) (isVisible_of_mem ht) hapart
  · intro text _ habsent
    unfold apply
    rw [hpattern] at habsent ⊢
    rw [hpattern', hreplacement]
    exact not_infix_dropBehind_of_absent (ne_space_of_mem_marks hmark) habsent

/-! ### Carrying them out in order -/

/-- The text after a list of replacements. -/
def applyAll (l : List Spelling) (text : List Char) : List Char :=
  l.foldl (fun text s => s.apply text) text

theorem singlySpaced_applyAll {l : List Spelling} (hl : ∀ s ∈ l, s.IsVisible) {text : List Char}
    (h : SinglySpaced text) : SinglySpaced (applyAll l text) := by
  induction l generalizing text with
  | nil => exact h
  | cons s l ih =>
    rw [List.forall_mem_cons] at hl
    exact ih hl.2 (hl.1.apply h)

/-- What is absent stays absent. -/
theorem absent_applyAll {l : List Spelling} (hl : ∀ s ∈ l, s.IsVisible) {s : Spelling}
    (hkeeps : ∀ t ∈ l, s.Keeps t) {text : List Char} (h : SinglySpaced text)
    (habsent : ¬ s.pattern.toList <:+: text) : ¬ s.pattern.toList <:+: applyAll l text := by
  induction l generalizing text with
  | nil => exact habsent
  | cons t l ih =>
    rw [List.forall_mem_cons] at hl hkeeps
    exact ih hl.2 hkeeps.2 (hl.1.apply h) (hkeeps.1 text h habsent)

/-- Each pattern is cleared when its turn comes, and kept away from then on. -/
theorem absent_applyAll_of_mem {l : List Spelling} (hl : ∀ s ∈ l, s.IsVisible)
    (hclears : ∀ s ∈ l, s.Clears) (hkeeps : l.Pairwise Keeps) {text : List Char}
    (h : SinglySpaced text) : ∀ s ∈ l, ¬ s.pattern.toList <:+: applyAll l text := by
  induction l generalizing text with
  | nil => simp
  | cons t l ih =>
    rw [List.forall_mem_cons] at hl hclears
    rw [List.pairwise_cons] at hkeeps
    intro s hs
    rcases List.mem_cons.1 hs with rfl | hs
    · exact absent_applyAll hl.2 hkeeps.1 (hl.1.apply h) (hclears.1 text h)
    · exact ih hl.2 hclears.2 hkeeps.2 (hl.1.apply h) s hs

theorem applyAll_eq_self {l : List Spelling} {text : List Char}
    (h : ∀ s ∈ l, ¬ s.pattern.toList <:+: text) : applyAll l text = text := by
  induction l with
  | nil => rfl
  | cons s l ih =>
    rw [List.forall_mem_cons] at h
    have hself : s.apply text = text := replaceAll_eq_self_of_absent h.1
    unfold applyAll at ih ⊢
    rw [List.foldl_cons, hself, ih h.2]

/-- A text that is not empty does not become empty. -/
theorem applyAll_ne_nil {l : List Spelling} (hl : ∀ s ∈ l, s.IsVisible) {text : List Char}
    (h : text ≠ []) : applyAll l text ≠ [] := by
  induction l generalizing text with
  | nil => exact h
  | cons s l ih =>
    rw [List.forall_mem_cons] at hl
    exact ih hl.2 (replaceAll_ne_nil hl.1.2.1 h)

end Spelling

/-! ### Normal texts -/

/-- The normal spelling is in normal form. -/
theorem isNormal_normalChars (text : List Char) : IsNormal (normalChars text) := by
  have hspaced := singlySpaced_joinWords_words text
  have hvisible : ∀ s ∈ spellings, s.IsVisible := fun s => Spelling.isVisible_of_mem
  have hclears : ∀ s ∈ spellings, s.Clears := fun s => Spelling.clears_of_mem
  exact ⟨Spelling.singlySpaced_applyAll hvisible hspaced,
    Spelling.absent_applyAll_of_mem hvisible hclears Spelling.pairwise_keeps hspaced⟩

theorem isNormal_normalize (text : String) : IsNormal (normalize text).toList := by
  unfold normalize
  rw [String.toList_ofList]
  exact isNormal_normalChars text.toList

/-- **The texts in normal form are the normal spellings.** -/
theorem normalChars_eq_self_iff {text : List Char} : normalChars text = text ↔ IsNormal text := by
  constructor
  · intro h
    rw [← h]
    exact isNormal_normalChars text
  · intro h
    unfold normalChars
    rw [h.joinWords_words]
    exact Spelling.applyAll_eq_self h.patterns

theorem normalize_eq_self_iff {text : String} : normalize text = text ↔ IsNormal text.toList := by
  rw [← normalChars_eq_self_iff, normalize, ← String.toList_inj, String.toList_ofList]

theorem normalChars_eq_nil_iff {text : List Char} :
    normalChars text = [] ↔ isAllBlank text = true := by
  rw [← words_eq_nil_iff]
  constructor
  · intro h
    by_contra hwords
    have hjoin : joinWords (words text) ≠ [] :=
      joinWords_ne_nil (fun word hmem => (mem_words hmem).1) hwords
    exact Spelling.applyAll_ne_nil (fun s => Spelling.isVisible_of_mem) hjoin h
  · intro h
    unfold normalChars
    rw [h]
    rfl

theorem normalize_eq_empty_iff {text : String} :
    normalize text = "" ↔ isAllBlank text.toList = true := by
  rw [← normalChars_eq_nil_iff, normalize, ← String.toList_inj, String.toList_ofList]
  rfl

/-- **Normal texts can be joined by a mark.** -/
theorem IsNormal.append_mark_cons {before after : List Char} {mark : Char}
    (hmark : mark ∈ Spelling.marks) (hbefore : IsNormal before) (hafter : IsNormal after) :
    IsNormal (before ++ mark :: after) := by
  have hvisible : Spelling.marks.any isBlank = false := by decide
  have htable : ∀ s ∈ spellings, Spelling.marks.all (fun mark =>
      decide (mark ∈ s.pattern.toList →
        s.pattern.toList = [' ', mark] ∨ s.pattern.toList = [mark, ' '])) = true := by
    decide +kernel
  simp only [List.any_eq_false, Bool.not_eq_true] at hvisible
  simp only [List.all_eq_true, decide_eq_true_eq] at htable
  have hspaced := SinglySpaced.append_visible_cons (hvisible mark hmark)
    hbefore.toSinglySpaced hafter.toSinglySpaced
  have hspace := Spelling.ne_space_of_mem_marks hmark
  refine ⟨hspaced, ?_⟩
  intro s hs hoccurs
  by_cases hmem : mark ∈ s.pattern.toList
  · -- a space would have to stand next to the mark
    have hleft : ' ' ∉ before.getLast? := by
      intro hlast
      have hblank := hbefore.last ' ' hlast
      rw [isBlank_space] at hblank
      cases hblank
    have hright : ¬ [' '] <+: after := by
      rintro ⟨rest, rfl⟩
      have hblank := hafter.first ' ' rfl
      rw [isBlank_space] at hblank
      cases hblank
    have hbetween : ∀ x y, s.pattern.toList = [x, y] →
        x ∈ before.getLast? ∧ y = mark ∨ x = mark ∧ [y] <+: after := by
      intro x y hpattern
      have habsent := hbefore.patterns s hs
      have habsent' := hafter.patterns s hs
      rw [hpattern] at hoccurs habsent habsent'
      exact ((cases_of_pair_infix_append_cons hoccurs).resolve_left habsent).resolve_left habsent'
    rcases htable s hs mark hmark hmem with hpattern | hpattern
    · rcases hbetween _ _ hpattern with ⟨hlast, -⟩ | ⟨heq, -⟩
      · exact hleft hlast
      · exact hspace heq.symm
    · rcases hbetween _ _ hpattern with ⟨-, heq⟩ | ⟨-, hfirst⟩
      · exact hspace heq.symm
      · exact hright hfirst
  · rcases infix_append_cons_of_notMem hmem hoccurs with hoccurs | hoccurs
    · exact hbefore.patterns s hs hoccurs
    · exact hafter.patterns s hs hoccurs

/-- **One pass of the replacements reaches the normal form**: no pattern occurs any more, the
only blanks are single spaces between other characters, and a second pass changes nothing. -/
theorem normalize_isNormal (text : String) :
    IsNormal (normalize text).toList ∧ normalize (normalize text) = normalize text := by
  have hnormal := isNormal_normalize text
  exact ⟨hnormal, normalize_eq_self_iff.2 hnormal⟩

end ExactUnits
