import ExactUnits.Proofs.Text.Replacement

/-!
# Cuts at a pattern

A text is cut at the first occurrence of a pattern.  In a text that is put together around a mark,
an occurrence lies in one of the parts or across a seam.  What does not overlap with the mark lies
in one of the parts; a word between two spaces can share a space with a mark that is such a word
as well, and then the text before the mark ends in the word, or the text behind it begins with it.

## Main definitions

* `spaced` — a word between two spaces.

## Main results

* `cut?_eq_none_iff`, `cut?_eq_some_iff` — **a cut falls at the first occurrence.**
* `not_infix_of_apart`, `not_infix_spaced` — what does not occur around a mark.
* `not_infix_append_dropLast`, `not_infix_append_spaced_dropLast` — a mark that does not occur
  before it is all there.
-/

namespace ExactUnits.Text

/-! ### The first occurrence -/

section Cut

variable {pattern text before after : List Char} {c : Char}

theorem cut?_cons_of_front (h : pattern <+: c :: text) :
    cut? pattern (c :: text) = some ([], (c :: text).drop pattern.length) := by
  rw [cut?, if_pos (List.isPrefixOf_iff_prefix.2 h)]

theorem cut?_cons_of_not_front (h : ¬ pattern <+: c :: text) :
    cut? pattern (c :: text) =
      (cut? pattern text).map fun (before, after) => (c :: before, after) := by
  rw [cut?, if_neg (by rwa [List.isPrefixOf_iff_prefix])]

/-- A text is cut unless the pattern does not occur in it. -/
theorem cut?_eq_none_iff (hpattern : pattern ≠ []) :
    cut? pattern text = none ↔ ¬ pattern <:+: text := by
  induction text with
  | nil => simp [cut?, hpattern]
  | cons c text ih =>
    by_cases hfront : pattern <+: c :: text
    · simp [cut?_cons_of_front hfront, hfront.isInfix]
    · simp [cut?_cons_of_not_front hfront, List.infix_cons_iff, hfront, ih]

theorem cut?_append_self (hpattern : pattern ≠ []) (after : List Char) :
    cut? pattern (pattern ++ after) = some ([], after) := by
  obtain ⟨c, rest, rfl⟩ := List.exists_cons_of_ne_nil hpattern
  have hfront : c :: rest <+: c :: (rest ++ after) := List.prefix_append (c :: rest) after
  have hdrop : (c :: (rest ++ after)).drop (c :: rest).length = after := List.drop_left
  rw [List.cons_append, cut?_cons_of_front hfront, hdrop]

theorem length_dropLast_lt (hpattern : pattern ≠ []) : pattern.dropLast.length < pattern.length := by
  have hpos := List.length_pos_of_ne_nil hpattern
  rw [List.length_dropLast]
  omega

/-- Whether a pattern is in front of a text that has it further on is decided before the last
character of that. -/
theorem prefix_append_dropLast_iff (hbefore : before ≠ []) (after : List Char) :
    pattern <+: before ++ pattern.dropLast ↔ pattern <+: before ++ pattern ++ after := by
  have hbegins : before ++ pattern.dropLast <+: before ++ pattern ++ after := by
    rw [List.append_assoc, List.prefix_append_right_inj]
    exact (List.dropLast_prefix pattern).trans (List.prefix_append pattern after)
  have hlength : pattern.length ≤ (before ++ pattern.dropLast).length := by
    have hpos := List.length_pos_of_ne_nil hbefore
    rw [List.length_append, List.length_dropLast]
    omega
  exact ⟨fun h => h.trans hbegins, fun h => List.prefix_of_prefix_length_le h hbegins hlength⟩

/-- **A cut falls at the first occurrence**: the pattern does not occur before it is all there. -/
theorem cut?_eq_some_iff (hpattern : pattern ≠ []) :
    cut? pattern text = some (before, after) ↔
      text = before ++ pattern ++ after ∧ ¬ pattern <:+: before ++ pattern.dropLast := by
  have hcut : cut? pattern (before ++ pattern ++ after) = some (before, after) ↔
      ¬ pattern <:+: before ++ pattern.dropLast := by
    induction before with
    | nil =>
      refine iff_of_true (cut?_append_self hpattern after) fun hoccurs => ?_
      exact absurd hoccurs.length_le (Nat.not_le.2 (length_dropLast_lt hpattern))
    | cons c before ih =>
      have hfront : pattern <+: c :: (before ++ pattern.dropLast) ↔
          pattern <+: c :: (before ++ pattern ++ after) :=
        prefix_append_dropLast_iff (List.cons_ne_nil c before) after
      rw [List.cons_append, List.cons_append, List.cons_append, List.infix_cons_iff, hfront]
      by_cases h : pattern <+: c :: (before ++ pattern ++ after)
      · rw [cut?_cons_of_front h]
        exact iff_of_false (by simp) (not_not_intro (.inl h))
      · rw [cut?_cons_of_not_front h, or_iff_right h, ← ih]
        simp
  constructor
  · intro h
    obtain rfl := eq_of_cut? h
    exact ⟨rfl, hcut.1 h⟩
  · rintro ⟨rfl, hnot⟩
    exact hcut.2 hnot

end Cut

/-! ### Occurrences around a mark -/

section Mark

variable {wanted mark before after : List Char}

/-- **What does not overlap with a mark lies on one of its sides.** -/
theorem not_infix_of_apart (hwanted : wanted ≠ []) (hapart : Apart wanted mark)
    (hbefore : ¬ wanted <:+: before) (hafter : ¬ wanted <:+: after) :
    ¬ wanted <:+: before ++ mark ++ after := by
  obtain ⟨hclear, hclear'⟩ := hapart
  intro h
  rw [List.append_assoc] at h
  rcases List.infix_append_iff_ne_nil.1 h with h | h | ⟨front, back, hfront, hback, rfl, hsuffix, h⟩
  · exact hbefore h
  · rcases List.infix_append_iff_ne_nil.1 h with h | h | ⟨front, back, hfront, -, rfl, hsuffix, -⟩
    · -- all of it in the mark
      obtain ⟨s, hfirst, hsuffix⟩ := List.infix_iff_prefix_suffix.1 h
      have hs : s ≠ [] := by
        rintro rfl
        exact hwanted (List.prefix_nil.1 hfirst)
      exact (hclear' s hs hsuffix).2 hfirst
    · exact hafter h
    · exact (hclear' front hfront hsuffix).1 (List.prefix_append front back)
  · -- its end is in front of the mark, or has the mark in front
    have hend := hclear back hback (List.suffix_append front back)
    rcases List.prefix_or_prefix_of_prefix h (List.prefix_append mark after) with hmeet | hmeet
    · exact hend.1 hmeet
    · exact hend.2 hmeet

/-- A mark of which no end is a beginning does not occur before it is all there. -/
theorem not_infix_append_dropLast (hmark : mark ≠ []) (hclear : Clear mark.tail mark)
    (hbefore : ¬ mark <:+: before) : ¬ mark <:+: before ++ mark.dropLast := by
  intro h
  rcases List.infix_append_iff_ne_nil.1 h with h | h | ⟨front, back, hfront, hback, heq, -, h⟩
  · exact hbefore h
  · exact absurd h.length_le (Nat.not_le.2 (length_dropLast_lt hmark))
  · obtain ⟨c, front, rfl⟩ := List.exists_cons_of_ne_nil hfront
    have hsuffix : back <:+ mark.tail := by
      rw [heq]
      exact List.suffix_append front back
    exact (hclear back hback hsuffix).1 (h.trans (List.dropLast_prefix mark))

end Mark

/-! ### Words between spaces -/

section Spaced

variable {word other before after : List Char}

/-- A word between two spaces. -/
def spaced (word : List Char) : List Char := ' ' :: (word ++ [' '])

theorem space_mem_spaced (word : List Char) : ' ' ∈ spaced word := List.mem_cons_self ..

theorem dropLast_spaced (word : List Char) : (spaced word).dropLast = ' ' :: word := by
  have hdrop : (' ' :: word ++ [' ']).dropLast = ' ' :: word := List.dropLast_concat
  exact hdrop

/-- Where a word between spaces can stand in a text that is joined by a space. -/
theorem cases_of_spaced_infix (hword : ' ' ∉ word)
    (h : spaced word <:+: before ++ ' ' :: after) :
    spaced word <:+: before ∨ ' ' :: word <:+ before ∨ word ++ [' '] <+: after ∨
      spaced word <:+: after := by
  rw [List.infix_append_iff_ne_nil, List.infix_cons_iff] at h
  rcases h with h | (h | h) | ⟨front, back, hfront, hback, heq, hsuffix, h⟩
  · exact .inl h
  · exact .inr (.inr (.inl (List.cons_prefix_cons.1 h).2))
  · exact .inr (.inr (.inr h))
  · -- the joining space is the last one
    obtain ⟨c, front, rfl⟩ := List.exists_cons_of_ne_nil hfront
    obtain ⟨d, back, rfl⟩ := List.exists_cons_of_ne_nil hback
    obtain ⟨rfl, -⟩ := List.cons_prefix_cons.1 h
    obtain ⟨rfl, hrest⟩ := List.cons.inj heq
    obtain ⟨rfl, -⟩ := (List.append_cons_inj_of_notMem hword List.not_mem_nil).1 hrest
    exact .inr (.inl hsuffix)

/-- **A spaced word does not occur around another one**, if the text before the mark does not end
in the word, and the text behind it does not begin with it. -/
theorem not_infix_spaced (hword : ' ' ∉ word) (hother : ' ' ∉ other) (hne : word ≠ other)
    (hbefore : ¬ spaced word <:+: before) (hafter : ¬ spaced word <:+: after)
    (hlast : ¬ ' ' :: word <:+ before) (hfirst : ¬ word ++ [' '] <+: after) :
    ¬ spaced word <:+: before ++ spaced other ++ after := by
  intro h
  have htext : before ++ spaced other ++ after = before ++ ' ' :: (other ++ ' ' :: after) := by
    simp [spaced]
  rw [htext] at h
  rcases cases_of_spaced_infix hword h with h | h | ⟨rest, h⟩ | h
  · exact hbefore h
  · exact hlast h
  · -- both words end at the first space
    have hcut := congrArg (cutAt (· == ' ')) h
    rw [List.append_assoc, List.singleton_append, cutAt_of_first hword, cutAt_of_first hother] at hcut
    exact hne (Prod.mk.inj hcut).1
  · rcases cases_of_spaced_infix hword h with h | h | h | h
    · exact hother (h.subset (space_mem_spaced word))
    · exact hother (h.subset (List.mem_cons_self ..))
    · exact hfirst h
    · exact hafter h

/-- A spaced word does not occur before it is all there, if the text before it does not end in
the word. -/
theorem not_infix_append_spaced_dropLast (hword : ' ' ∉ word) (hbefore : ¬ spaced word <:+: before)
    (hlast : ¬ ' ' :: word <:+ before) : ¬ spaced word <:+: before ++ (spaced word).dropLast := by
  intro h
  rw [dropLast_spaced] at h
  rcases cases_of_spaced_infix hword h with h | h | h | h
  · exact hbefore h
  · exact hlast h
  · exact hword (h.subset (List.mem_append_right word (List.mem_singleton_self ' ')))
  · exact hword (h.subset (space_mem_spaced word))

end Spaced

end ExactUnits.Text
