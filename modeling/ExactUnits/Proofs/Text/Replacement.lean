import Mathlib.Data.List.Basic
import Mathlib.Data.List.TakeWhile
import ExactUnits.Proofs.Text.Occurrence
import ExactUnits.Text.Blank

/-!
# Cutting, trimming and replacing in texts of known characters

What the searches do to a text is known as soon as one knows which characters
occur in it.  A cut needs its character; blanks are lost only where there are any;
and a replacement changes nothing unless all characters of its pattern occur, and
works on both sides of a character that is not in its pattern separately.

## Main definitions

* `Trimmed text core` — the core is the text without the blanks at its two ends.

## Main results

* `cutAt_append`, `exists_cutAt`, `cutAt_of_first` — a cut falls in front of the first
  character of its kind.
* `trim_eq_iff` — **trimming takes off the blanks at the two ends, and nothing else.**
* `trim_eq_self`, `joinWords_words_eq_self` — texts without blanks to lose.
* `exists_trim_append` — behind a visible text, blanks are taken off the end only.
* `replaceAll_eq_self` — patterns that cannot occur.
* `replaceAll_append_cons` — **a replacement does not reach across a character that
  is not in its pattern.**
-/

namespace ExactUnits.Text

/-! ### Cuts -/

theorem cutAt_append {p : Char → Bool} {before rest : List Char}
    (hbefore : ∀ d ∈ before, p d = false) (hrest : ∀ c ∈ rest.head?, p c = true) :
    cutAt p (before ++ rest) = (before, rest.tail?) := by
  induction before with
  | nil =>
    cases rest with
    | nil => rfl
    | cons c rest => rw [List.nil_append, cutAt_cons, if_pos (hrest c rfl), List.tail?_cons]
  | cons d before ih =>
    rw [List.forall_mem_cons] at hbefore
    rw [List.cons_append, cutAt_cons, if_neg (by simp [hbefore.1]), ih hbefore.2]

theorem cutAt_eq_self {p : Char → Bool} {text : List Char} (h : ∀ c ∈ text, p c = false) :
    cutAt p text = (text, none) := by
  have hcut : cutAt p (text ++ []) = (text, none) := cutAt_append h (by simp)
  rwa [List.append_nil] at hcut

theorem cutAt_append_cons {p : Char → Bool} {before : List Char} {c : Char} {after : List Char}
    (h : ∀ d ∈ before, p d = false) (hc : p c = true) :
    cutAt p (before ++ c :: after) = (before, some after) :=
  cutAt_append h fun _ hd => Option.some.inj hd ▸ hc

/-- A text without a character is not cut at it. -/
theorem cutAt_of_notMem {c : Char} {text : List Char} (h : c ∉ text) :
    cutAt (· == c) text = (text, none) := by
  refine cutAt_eq_self ?_
  intro d hd
  simpa using ne_of_mem_of_not_mem hd h

/-- A text is cut at the first place of a character. -/
theorem cutAt_of_first {c : Char} {before : List Char} (h : c ∉ before) (after : List Char) :
    cutAt (· == c) (before ++ c :: after) = (before, some after) := by
  refine cutAt_append_cons ?_ (beq_self_eq_true c)
  intro d hd
  simpa using ne_of_mem_of_not_mem hd h

/-- Every text is cut in front of a character of the kind, or at its end. -/
theorem exists_cutAt (p : Char → Bool) (text : List Char) :
    ∃ before rest, text = before ++ rest ∧ cutAt p text = (before, rest.tail?) ∧
      (∀ d ∈ before, p d = false) ∧ ∀ c ∈ rest.head?, p c = true := by
  refine ⟨text.takeWhile (!p ·), text.dropWhile (!p ·), List.takeWhile_append_dropWhile.symm, rfl,
    ?_, ?_⟩
  · intro d hd
    simpa using List.mem_takeWhile_imp hd
  · intro c hc
    have hstop := List.head?_dropWhile_not (!p ·) text
    rw [hc] at hstop
    simpa using hstop

/-! ### Blanks -/

theorem trimLeft_eq_self {text : List Char} (h : ∀ c ∈ text.head?, isBlank c = false) :
    trimLeft text = text := by
  cases text with
  | nil => rfl
  | cons c text => exact List.dropWhile_cons_of_neg (by simp [h c rfl])

/-- The core of a text: what is left of it without the blanks at its two ends. -/
structure Trimmed (text core : List Char) : Prop where
  /-- Nothing but blanks is lost. -/
  around : ∃ left right, (∀ c ∈ left, isBlank c = true) ∧ (∀ c ∈ right, isBlank c = true) ∧
    text = left ++ core ++ right
  /-- No blank is left in front. -/
  first : ∀ c ∈ core.head?, isBlank c = false
  /-- No blank is left at the end. -/
  last : ∀ c ∈ core.getLast?, isBlank c = false

/-- What is left of a text has no blank in front. -/
theorem head?_trimLeft {text : List Char} {c : Char} (hc : c ∈ (trimLeft text).head?) :
    isBlank c = false := by
  have hstop := List.head?_dropWhile_not isBlank text
  rw [show (text.dropWhile isBlank).head? = some c from hc] at hstop
  simpa using hstop

theorem trimmed_trim (text : List Char) : Trimmed text (trim text) := by
  have hleft : text.takeWhile isBlank ++ trimLeft text = text :=
    List.takeWhile_append_dropWhile
  -- what is dropped at the end is blank and has been dropped from the reversed text
  have hright : trimLeft text =
      trim text ++ ((trimLeft text).reverse.takeWhile isBlank).reverse := by
    rw [trim, trimRight, ← List.reverse_append, List.takeWhile_append_dropWhile,
      List.reverse_reverse]
  refine ⟨⟨text.takeWhile isBlank, ((trimLeft text).reverse.takeWhile isBlank).reverse,
    fun c hc => List.mem_takeWhile_imp hc, fun c hc => ?_, ?_⟩, fun c hc => ?_, fun c hc => ?_⟩
  · exact List.mem_takeWhile_imp (List.mem_reverse.1 hc)
  · rw [List.append_assoc, ← hright, hleft]
  · obtain ⟨rest, hrest⟩ := List.head?_eq_some_iff.1 hc
    have hhead : c ∈ (trimLeft text).head? := by
      rw [hright, hrest]
      rfl
    exact head?_trimLeft hhead
  · rw [trim, trimRight, List.getLast?_reverse] at hc
    exact head?_trimLeft hc

theorem Trimmed.trim_eq {text core : List Char} (h : Trimmed text core) : trim text = core := by
  obtain ⟨⟨left, right, hleft, hright, rfl⟩, hfirst, hlast⟩ := h
  rw [List.append_assoc, trim, trimLeft, List.dropWhile_append_of_pos hleft]
  by_cases hcore : core = []
  · subst hcore
    rw [List.nil_append, List.dropWhile_eq_nil_iff.2 hright]
    rfl
  · -- the core begins and ends with characters that stop the trimming
    have hstart : trimLeft (core ++ right) = core ++ right := by
      refine trimLeft_eq_self fun c hc => hfirst c ?_
      rwa [List.head?_append_of_ne_nil _ hcore] at hc
    have hend : trimLeft core.reverse = core.reverse :=
      trimLeft_eq_self fun c hc => hlast c (by rwa [← List.head?_reverse])
    have hblanks : ∀ c ∈ right.reverse, isBlank c = true := fun c hc =>
      hright c (List.mem_reverse.1 hc)
    rw [← trimLeft, hstart, trimRight, List.reverse_append,
      List.dropWhile_append_of_pos hblanks, ← trimLeft, hend, List.reverse_reverse]

/-- **Trimming takes off the blanks at the two ends, and nothing else.** -/
theorem trim_eq_iff {text core : List Char} : trim text = core ↔ Trimmed text core :=
  ⟨fun h => h ▸ trimmed_trim text, Trimmed.trim_eq⟩

/-- Nothing is trimmed off a text that starts and ends without a blank. -/
theorem trim_eq_self {text : List Char} (hfirst : ∀ c ∈ text.head?, isBlank c = false)
    (hlast : ∀ c ∈ text.getLast?, isBlank c = false) : trim text = text :=
  Trimmed.trim_eq ⟨⟨[], [], by simp, by simp, by simp⟩, hfirst, hlast⟩

theorem trim_eq_self_of_forall {text : List Char} (h : ∀ c ∈ text, isBlank c = false) :
    trim text = text :=
  trim_eq_self (fun c hc => h c (List.mem_of_mem_head? hc))
    fun c hc => h c (List.mem_of_getLast? hc)

theorem trim_cons_of_blank {c : Char} (hc : isBlank c = true) (text : List Char) :
    trim (c :: text) = trim text := by
  unfold trim trimLeft
  rw [List.dropWhile_cons_of_pos hc]

theorem trim_append_of_blank {blanks : List Char} (hblanks : ∀ c ∈ blanks, isBlank c = true)
    (text : List Char) : trim (text ++ blanks) = trim text := by
  obtain ⟨⟨left, right, hleft, hright, htext⟩, hfirst, hlast⟩ := trimmed_trim text
  refine Trimmed.trim_eq ⟨⟨left, right ++ blanks, hleft, ?_, ?_⟩, hfirst, hlast⟩
  · exact List.forall_mem_append.2 ⟨hright, hblanks⟩
  · rw [← List.append_assoc, ← htext]

theorem trim_eq_nil_iff {text : List Char} : trim text = [] ↔ isAllBlank text = true := by
  unfold isAllBlank
  rw [List.all_eq_true]
  constructor
  · intro h
    obtain ⟨⟨left, right, hleft, hright, htext⟩, -, -⟩ := trimmed_trim text
    rw [h, List.append_nil] at htext
    rw [htext]
    exact List.forall_mem_append.2 ⟨hleft, hright⟩
  · intro h
    have hblanks := trim_append_of_blank h []
    rwa [List.nil_append] at hblanks

/-- Behind a text without blanks, blanks are taken off the end only. -/
theorem exists_trim_append {before : List Char} (hnil : before ≠ [])
    (hbefore : ∀ c ∈ before, isBlank c = false) (text : List Char) :
    ∃ front, front <+: text ∧ trim (before ++ text) = before ++ front ∧ trim front = trim text := by
  have htext : text = trimRight text ++ (text.reverse.takeWhile isBlank).reverse := by
    rw [trimRight, ← List.reverse_append, List.takeWhile_append_dropWhile, List.reverse_reverse]
  have hblanks : ∀ c ∈ (text.reverse.takeWhile isBlank).reverse, isBlank c = true := fun c hc =>
    List.mem_takeWhile_imp (List.mem_reverse.1 hc)
  refine ⟨trimRight text, ⟨_, htext.symm⟩, Trimmed.trim_eq ⟨⟨[], _, by simp, hblanks, ?_⟩, ?_, ?_⟩, ?_⟩
  · rw [List.nil_append, List.append_assoc, ← htext]
  · intro c hc
    rw [List.head?_append_of_ne_nil _ hnil] at hc
    exact hbefore c (List.mem_of_mem_head? hc)
  · intro c hc
    rw [List.getLast?_append, Option.mem_def, Option.or_eq_some_iff] at hc
    rcases hc with hc | ⟨-, hc⟩
    · rw [trimRight, List.getLast?_reverse] at hc
      exact head?_trimLeft hc
    · exact hbefore c (List.mem_of_getLast? hc)
  · conv_rhs => rw [htext]
    exact (trim_append_of_blank hblanks _).symm

/-- A text without blanks is its only word. -/
theorem joinWords_words_eq_self {text : List Char} (h : ∀ c ∈ text, isBlank c = false) :
    joinWords (words text) = text := by
  have hsplit : text.splitOnP isBlank = [text] := List.splitOnP_eq_singleton h
  unfold words
  rw [hsplit]
  cases text with
  | nil => rfl
  | cons c text => exact List.intercalate_singleton

/-! ### Replacements -/

section Replace

variable {pattern replacement : List Char}

theorem replaceAll_eq_self {x : Char} (hx : x ∈ pattern) {text : List Char} (h : x ∉ text) :
    replaceAll pattern replacement text = text :=
  replaceAll_eq_self_of_absent fun hoccurs => h (hoccurs.subset hx)

/-- **A replacement does not reach across a character that is not in its pattern.** -/
theorem replaceAll_append_cons {c : Char} (hc : c ∉ pattern) (hpattern : pattern ≠ [])
    (before after : List Char) :
    replaceAll pattern replacement (before ++ c :: after) =
      replaceAll pattern replacement before ++ c :: replaceAll pattern replacement after := by
  have hnot : ¬ pattern <+: c :: after := fun hfirst => hc (mem_of_prefix_cons hpattern hfirst)
  rw [← replaceAll_cons_of_not_front hnot]
  refine replaceAll_append_of_seam hpattern ?_
  rintro front back - hback rfl - hfirst
  exact hc (List.mem_append_right front (mem_of_prefix_cons hback hfirst))

theorem mem_replaceFrom {skip : Nat} {text : List Char} {c : Char}
    (h : c ∈ replaceFrom pattern replacement skip text) : c ∈ replacement ∨ c ∈ text := by
  induction text generalizing skip with
  | nil =>
    rw [replaceFrom_nil] at h
    cases h
  | cons d text ih =>
    cases skip with
    | succ skip => exact (ih h).imp_right (List.mem_cons_of_mem _)
    | zero =>
      rw [replaceFrom] at h
      split at h
      · rcases List.mem_append.1 h with h | h
        · exact .inl h
        · exact (ih h).imp_right (List.mem_cons_of_mem _)
      · rcases List.mem_cons.1 h with rfl | h
        · exact .inr (List.mem_cons_self ..)
        · exact (ih h).imp_right (List.mem_cons_of_mem _)

theorem mem_replaceAll {text : List Char} {c : Char}
    (h : c ∈ replaceAll pattern replacement text) : c ∈ replacement ∨ c ∈ text :=
  mem_replaceFrom h

theorem replaceAll_ne_nil (hreplacement : replacement ≠ []) {text : List Char} (h : text ≠ []) :
    replaceAll pattern replacement text ≠ [] := by
  cases text with
  | nil => exact absurd rfl h
  | cons c text =>
    rw [replaceAll_cons]
    split
    · exact fun hnil => hreplacement (List.append_eq_nil_iff.1 hnil).1
    · exact List.cons_ne_nil _ _

end Replace

end ExactUnits.Text
