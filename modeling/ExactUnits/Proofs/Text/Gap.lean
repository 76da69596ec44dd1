import ExactUnits.Proofs.Text.Words

/-!
# Texts on the two sides of a character

Words and replacements are found in a whole text.  Where they are found in a text that is
joined by a character is known from its two sides, if nothing that is looked for reaches
across.  Single spaces may be left or lost next to the character: there is a gap on either
side of it, which is nothing or one space, and what happens to the text is what happens to
its sides, up to the gaps.

## Main definitions

* `respaced` — the words of a text with single spaces between them.
* `IsGap` — nothing, or a space.
* `JoinedAt` — two texts on the sides of a character, with gaps next to it.

## Main results

* `joinedAt_respaced` — **respacing works on the two sides of a visible character.**
* `JoinedAt.replaceAll_dropBefore`, `JoinedAt.replaceAll_dropBehind`, `JoinedAt.replaceAll` —
  so do replacements that drop spaces, and those that do not look at the gaps.
-/

namespace ExactUnits.Text

/-! ### Gaps -/

/-- Nothing, or a space. -/
def IsGap (gap : List Char) : Prop := gap = [] ∨ gap = [' ']

/-- A text has the character `c` in it, with the given texts on its two sides, up to a gap on
either side of the character. -/
def JoinedAt (c : Char) (before after text : List Char) : Prop :=
  ∃ left right, IsGap left ∧ IsGap right ∧ text = before ++ left ++ c :: (right ++ after)

/-! ### Respacing -/

/-- The words of a text with single spaces between them. -/
def respaced (text : List Char) : List Char := joinWords (words text)

theorem singlySpaced_respaced (text : List Char) : SinglySpaced (respaced text) :=
  singlySpaced_joinWords_words text

theorem respaced_of_blank {text : List Char} (h : words text = []) : respaced text = [] := by
  unfold respaced
  rw [h]
  rfl

theorem respaced_cons_of_blank {c : Char} (hc : isBlank c = true) (text : List Char) :
    respaced (c :: text) = respaced text := by
  unfold respaced
  rw [words_cons_of_blank hc]

theorem respaced_singleton {c : Char} (hc : isBlank c = false) : respaced [c] = [c] :=
  joinWords_words_eq_self (by simpa using hc)

section Visible

variable {c d : Char} {text : List Char}

theorem joinWords_cons_cons (word : List Char) (parts : List (List Char)) :
    joinWords ((c :: word) :: parts) = c :: joinWords (word :: parts) := by
  by_cases hparts : parts = []
  · subst hparts
    rfl
  · rw [joinWords_cons _ hparts, joinWords_cons _ hparts, List.cons_append]

/-- A word goes on with its next character. -/
theorem respaced_cons_cons (hc : isBlank c = false) (hd : isBlank d = false) :
    respaced (c :: d :: text) = c :: respaced (d :: text) := by
  obtain ⟨first, rest, hsplit⟩ := List.exists_cons_of_ne_nil (List.splitOnP_ne_nil isBlank text)
  have hsplit' : (d :: text).splitOnP isBlank = (d :: first) :: rest := by
    simp [List.splitOnP_cons_eq_if_modifyHead, hd, hsplit]
  have hwords : words (d :: text) = (d :: first) :: rest.filter (!·.isEmpty) := by
    simp [words, hsplit']
  have hwords' : words (c :: d :: text) = (c :: d :: first) :: rest.filter (!·.isEmpty) := by
    simp [words, List.splitOnP_cons_eq_if_modifyHead c, hc, hsplit']
  unfold respaced
  rw [hwords, hwords', joinWords_cons_cons]

/-- Behind a word there is a space if another word follows. -/
theorem respaced_cons_cons_of_blank (hc : isBlank c = false) (hd : isBlank d = true) :
    respaced (c :: d :: text) = if words text = [] then [c] else c :: ' ' :: respaced text := by
  have hfirst : words [c] = [[c]] := words_eq_singleton (List.cons_ne_nil _ _) (by simpa using hc)
  have hwords : words (c :: d :: text) = [c] :: words text := by
    have hcut := words_append_cons hd [c] text
    rwa [hfirst] at hcut
  unfold respaced
  rw [hwords]
  split
  · next hnil =>
    rw [hnil]
    rfl
  · next hnil => rw [joinWords_cons _ hnil, List.singleton_append]

/-- In front of a text, a visible character has a gap behind it. -/
theorem exists_respaced_cons (hc : isBlank c = false) (text : List Char) :
    ∃ gap, IsGap gap ∧ respaced (c :: text) = c :: (gap ++ respaced text) := by
  cases text with
  | nil => exact ⟨[], .inl rfl, respaced_singleton hc⟩
  | cons d text =>
    cases hd : isBlank d with
    | false => exact ⟨[], .inl rfl, respaced_cons_cons hc hd⟩
    | true =>
      rw [respaced_cons_cons_of_blank hc hd, respaced_cons_of_blank hd]
      split
      · next hwords => exact ⟨[], .inl rfl, by rw [respaced_of_blank hwords]; rfl⟩
      · exact ⟨[' '], .inr rfl, rfl⟩

/-- Behind a text, a visible character has a gap in front of it. -/
theorem exists_respaced_append (hc : isBlank c = false) (before after : List Char) :
    ∃ gap, IsGap gap ∧
      respaced (before ++ c :: after) = respaced before ++ gap ++ respaced (c :: after) := by
  have hvisible : ∀ text, words (text ++ c :: after) ≠ [] := by
    intro text hwords
    rw [words_eq_nil_iff, isAllBlank, List.all_append, List.all_cons, hc] at hwords
    simp at hwords
  induction before with
  | nil => exact ⟨[], .inl rfl, rfl⟩
  | cons d before ih =>
    obtain ⟨gap, hgap, htext⟩ := ih
    cases hd : isBlank d with
    | true =>
      rw [List.cons_append, respaced_cons_of_blank hd, respaced_cons_of_blank hd]
      exact ⟨gap, hgap, htext⟩
    | false =>
      cases before with
      | nil =>
        refine ⟨[], .inl rfl, ?_⟩
        rw [List.cons_append, List.nil_append, respaced_cons_cons hd hc, respaced_singleton hd]
        rfl
      | cons e before =>
        rw [List.cons_append] at htext
        rw [List.cons_append, List.cons_append]
        cases he : isBlank e with
        | false =>
          rw [respaced_cons_cons hd he, respaced_cons_cons hd he, htext]
          exact ⟨gap, hgap, rfl⟩
        | true =>
          rw [respaced_cons_of_blank he, respaced_cons_of_blank he] at htext
          rw [respaced_cons_cons_of_blank hd he, respaced_cons_cons_of_blank hd he,
            if_neg (hvisible before), htext]
          split
          · next hwords =>
            -- only blanks stand before the character
            have hself : respaced (before ++ c :: after) = respaced (c :: after) := by
              unfold respaced
              rw [words_blank_append (words_eq_nil_iff.1 hwords)]
            exact ⟨[' '], .inr rfl, by rw [← htext, hself]; rfl⟩
          · exact ⟨gap, hgap, rfl⟩

/-- **Respacing works on the two sides of a visible character**, up to the gaps. -/
theorem joinedAt_respaced (hc : isBlank c = false) (before after : List Char) :
    JoinedAt c (respaced before) (respaced after) (respaced (before ++ c :: after)) := by
  obtain ⟨left, hleft, htext⟩ := exists_respaced_append hc before after
  obtain ⟨right, hright, hafter⟩ := exists_respaced_cons hc after
  exact ⟨left, right, hleft, hright, by rw [htext, hafter]⟩

end Visible

/-! ### Replacements around gaps -/

section Replace

variable {pattern replacement before after text gap : List Char} {c mark : Char}

/-- What a replacement does to two texts with a gap between them is what it does to each of
them, up to the gap. -/
def KeepsGaps (pattern replacement before after : List Char) : Prop :=
  ∀ gap, IsGap gap → ∃ gap', IsGap gap' ∧
    replaceAll pattern replacement (before ++ gap ++ after) =
      replaceAll pattern replacement before ++ gap' ++ replaceAll pattern replacement after

/-- A replacement that keeps the gaps on the sides of a character works on its two sides. -/
theorem JoinedAt.replaceAll_of_keepsGaps (h : JoinedAt c before after text)
    (hself : replaceAll pattern replacement [c] = [c])
    (hbefore : ∀ rest, KeepsGaps pattern replacement before (c :: rest))
    (hafter : KeepsGaps pattern replacement [c] after) :
    JoinedAt c (replaceAll pattern replacement before) (replaceAll pattern replacement after)
      (replaceAll pattern replacement text) := by
  obtain ⟨left, right, hleft, hright, rfl⟩ := h
  obtain ⟨left', hleft', htext⟩ := hbefore (right ++ after) left hleft
  obtain ⟨right', hright', hrest⟩ := hafter right hright
  refine ⟨left', right', hleft', hright', ?_⟩
  have hcons : c :: (right ++ after) = [c] ++ right ++ after := by simp
  rw [htext, hcons, hrest, hself]
  simp

/-- **A replacement that does not look at the character or at the spaces next to it works on
its two sides.** -/
theorem JoinedAt.replaceAll (h : JoinedAt c before after text) (hpattern : pattern ≠ [])
    (hc : c ∉ pattern)
    (hbefore : Text.replaceAll pattern replacement (before ++ [' ']) =
      Text.replaceAll pattern replacement before ++ [' '])
    (hafter : Text.replaceAll pattern replacement (' ' :: after) =
      ' ' :: Text.replaceAll pattern replacement after) :
    JoinedAt c (Text.replaceAll pattern replacement before)
      (Text.replaceAll pattern replacement after) (Text.replaceAll pattern replacement text) := by
  -- no occurrence has the character, so it cuts the replacement in two
  have hcut : ∀ x y, Text.replaceAll pattern replacement (x ++ c :: y) =
      Text.replaceAll pattern replacement x ++ c :: Text.replaceAll pattern replacement y :=
    replaceAll_append_cons hc hpattern
  have hcons : ∀ rest, Text.replaceAll pattern replacement (c :: rest) =
      c :: Text.replaceAll pattern replacement rest := hcut []
  refine h.replaceAll_of_keepsGaps (hcons []) ?_ ?_
  · rintro rest gap hgap
    refine ⟨gap, hgap, ?_⟩
    rw [hcut, hcons]
    rcases hgap with rfl | rfl
    · simp
    · rw [hbefore]
  · rintro gap hgap
    refine ⟨gap, hgap, ?_⟩
    rw [hcons []]
    rcases hgap with rfl | rfl
    · simpa using hcons after
    · simpa [hafter] using hcons (' ' :: after)

/-- Dropping spaces in front of a mark keeps a gap behind a text that does not end in one. -/
theorem keepsGaps_dropBefore (hmark : mark ≠ ' ') (hbefore : ' ' ∉ before.getLast?) :
    KeepsGaps [' ', mark] [mark] before after := by
  intro gap hgap
  have hseam : ∀ rest, replaceAll [' ', mark] [mark] (before ++ rest) =
      replaceAll [' ', mark] [mark] before ++ replaceAll [' ', mark] [mark] rest := by
    intro rest
    refine replaceAll_append_of_seam (List.cons_ne_nil _ _) ?_
    rintro front back hfront hback heq ⟨start, rfl⟩ -
    obtain ⟨rfl, rfl⟩ := eq_of_pair_eq_append hfront hback heq
    exact hbefore List.getLast?_concat
  rcases hgap with rfl | rfl
  · exact ⟨[], .inl rfl, by rw [List.append_nil, List.append_nil, hseam]⟩
  · rw [List.append_assoc, hseam, List.singleton_append]
    by_cases hfront : [' ', mark] <+: ' ' :: after
    · -- the space is the one that is dropped
      obtain ⟨rest, hrest⟩ := hfront
      obtain rfl : mark :: rest = after := (List.cons.inj hrest).2
      have hnot : ¬ [' ', mark] <+: mark :: rest := fun h =>
        hmark (List.cons_prefix_cons.1 h).1.symm
      have hdrop : replaceAll [' ', mark] [mark] ([' ', mark] ++ rest) =
          [mark] ++ replaceAll [' ', mark] [mark] rest :=
        replaceAll_append (List.cons_ne_nil _ _) rest
      refine ⟨[], .inl rfl, ?_⟩
      rw [replaceAll_cons_of_not_front hnot, List.append_nil]
      exact congrArg _ hdrop
    · exact ⟨[' '], .inr rfl, by rw [replaceAll_cons_of_not_front hfront, List.append_assoc]; rfl⟩

/-- Dropping spaces behind a mark keeps a gap in front of a text that does not begin with one. -/
theorem keepsGaps_dropBehind (hmark : mark ≠ ' ') (hafter : ' ' ∉ after.head?) :
    KeepsGaps [mark, ' '] [mark] before after := by
  intro gap hgap
  -- a pattern on the seam has the mark in front of it and the space behind
  have hseam : ∀ front rest : List Char, (mark ∈ front.getLast? → ' ' ∉ rest.head?) →
      replaceAll [mark, ' '] [mark] (front ++ rest) =
        replaceAll [mark, ' '] [mark] front ++ replaceAll [mark, ' '] [mark] rest := by
    intro front rest hnot
    refine replaceAll_append_of_seam (List.cons_ne_nil _ _) ?_
    rintro front' back hfront hback heq ⟨start, rfl⟩ ⟨tail, rfl⟩
    obtain ⟨rfl, rfl⟩ := eq_of_pair_eq_append hfront hback heq
    exact hnot List.getLast?_concat rfl
  rcases hgap with rfl | rfl
  · exact ⟨[], .inl rfl, by rw [List.append_nil, List.append_nil, hseam _ _ fun _ => hafter]⟩
  · by_cases hlast : mark ∈ before.getLast?
    · -- the space is the one that is dropped
      obtain ⟨front, rfl⟩ := List.getLast?_eq_some_iff.1 hlast
      have hmark' : ' ' ∉ (mark :: ' ' :: after).head? := by simpa using hmark
      have hmark'' : ' ' ∉ [mark].head? := by simpa using hmark
      have hself : replaceAll [mark, ' '] [mark] [mark] = [mark] :=
        replaceAll_eq_self (x := ' ') (by simp) (by simpa using hmark.symm)
      have hdrop : replaceAll [mark, ' '] [mark] ([mark, ' '] ++ after) =
          [mark] ++ replaceAll [mark, ' '] [mark] after :=
        replaceAll_append (List.cons_ne_nil _ _) after
      refine ⟨[], .inl rfl, ?_⟩
      rw [hseam front [mark] fun _ => hmark'', hself]
      have htext : front ++ [mark] ++ [' '] ++ after = front ++ mark :: ' ' :: after := by simp
      rw [htext, hseam front _ fun _ => hmark', List.append_nil, List.append_assoc]
      exact congrArg _ hdrop
    · have hnot : ¬ [mark, ' '] <+: ' ' :: after := fun h => hmark (List.cons_prefix_cons.1 h).1
      refine ⟨[' '], .inr rfl, ?_⟩
      rw [List.append_assoc, hseam _ _ fun h => absurd h hlast, List.singleton_append,
        replaceAll_cons_of_not_front hnot, List.append_assoc]
      rfl

/-- Dropping the spaces in front of a mark works on the two sides of a visible character. -/
theorem JoinedAt.replaceAll_dropBefore (h : JoinedAt c before after text) (hmark : mark ≠ ' ')
    (hc : c ≠ ' ') (hbefore : ' ' ∉ before.getLast?) :
    JoinedAt c (Text.replaceAll [' ', mark] [mark] before)
      (Text.replaceAll [' ', mark] [mark] after) (Text.replaceAll [' ', mark] [mark] text) := by
  have hself : Text.replaceAll [' ', mark] [mark] [c] = [c] :=
    replaceAll_eq_self (x := ' ') (by simp) (by simpa using hc.symm)
  exact h.replaceAll_of_keepsGaps hself (fun _ => keepsGaps_dropBefore hmark hbefore)
    (keepsGaps_dropBefore hmark (by simpa using hc))

/-- Dropping the spaces behind a mark works on the two sides of a visible character. -/
theorem JoinedAt.replaceAll_dropBehind (h : JoinedAt c before after text) (hmark : mark ≠ ' ')
    (hc : c ≠ ' ') (hafter : ' ' ∉ after.head?) :
    JoinedAt c (Text.replaceAll [mark, ' '] [mark] before)
      (Text.replaceAll [mark, ' '] [mark] after) (Text.replaceAll [mark, ' '] [mark] text) := by
  have hself : Text.replaceAll [mark, ' '] [mark] [c] = [c] :=
    replaceAll_eq_self (x := ' ') (by simp) (by simpa using hc.symm)
  exact h.replaceAll_of_keepsGaps hself (fun _ => keepsGaps_dropBehind hmark (by simpa using hc))
    (keepsGaps_dropBehind hmark hafter)

end Replace

end ExactUnits.Text
