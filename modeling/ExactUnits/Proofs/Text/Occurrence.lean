import Mathlib.Data.List.Infix
import ExactUnits.Text.Search

/-!
# Occurrences after a replacement

A replacement can make new occurrences of a text only where something of what it brings
in meets its surroundings.  An occurrence in the outcome begins in a replacement or at a
character that has stayed; so a text that does not overlap with the replacement occurs
afterwards only if it did before, and the pattern itself no longer does.

## Main definitions

* `Clear`, `Apart` — texts that cannot overlap, wherever they stand.
* `BeginsAt` — the places where a text can begin after a replacement.

## Main results

* `replace_induction` — induction along a replacement.
* `replaceAll_append_of_seam` — **a replacement works on two neighbours separately, if no
  occurrence lies across their seam.**
* `exists_beginsAt` — **where an occurrence begins after a replacement.**
* `not_infix_replaceAll` — **a replacement makes no occurrence of a text that is apart
  from what it brings in.**
* `replaceAll_eq_self_of_absent` — a pattern that does not occur is not replaced.
-/

namespace ExactUnits.Text

/-! ### Texts that do not overlap -/

/-- No text at the end of `a` is the beginning of `b` or begins with all of `b`. -/
def Clear (a b : List Char) : Prop := ∀ s, s ≠ [] → s <:+ a → ¬ s <+: b ∧ ¬ b <+: s

instance (a b : List Char) : Decidable (Clear a b) :=
  decidable_of_iff (∀ s ∈ a.tails, s ≠ [] → ¬ s <+: b ∧ ¬ b <+: s) <| by
    simp only [List.mem_tails]
    exact ⟨fun h s hs hsuffix => h s hsuffix hs, fun h s hsuffix hs => h s hs hsuffix⟩

/-- Neither text reaches into the other or holds the other, wherever they stand. -/
def Apart (a b : List Char) : Prop := Clear a b ∧ Clear b a

instance (a b : List Char) : Decidable (Apart a b) := inferInstanceAs (Decidable (_ ∧ _))

theorem Clear.tail {c : Char} {a b : List Char} (h : Clear (c :: a) b) : Clear a b := by
  intro s hs hsuffix
  exact h s hs (hsuffix.trans (List.suffix_cons c a))

theorem clear_of_disjoint {a b : List Char} (hb : b ≠ []) (h : ∀ c ∈ a, c ∉ b) : Clear a b := by
  intro s hs hsuffix
  constructor
  · intro hfirst
    obtain ⟨c, s, rfl⟩ := List.exists_cons_of_ne_nil hs
    have hc := List.mem_cons_self (a := c) (l := s)
    exact h c (hsuffix.subset hc) (hfirst.subset hc)
  · intro hfirst
    obtain ⟨c, b, rfl⟩ := List.exists_cons_of_ne_nil hb
    have hc := List.mem_cons_self (a := c) (l := b)
    exact h c (hsuffix.subset (hfirst.subset hc)) hc

/-- Texts without a common character are apart. -/
theorem apart_of_disjoint {a b : List Char} (ha : a ≠ []) (hb : b ≠ []) (h : ∀ c ∈ a, c ∉ b) :
    Apart a b :=
  ⟨clear_of_disjoint hb h, clear_of_disjoint ha fun c hcb hca => h c hca hcb⟩

/-- What stands in front of a text has its first character. -/
theorem mem_of_prefix_cons {part after : List Char} {c : Char} (hpart : part ≠ [])
    (h : part <+: c :: after) : c ∈ part := by
  obtain ⟨d, part, rfl⟩ := List.exists_cons_of_ne_nil hpart
  obtain ⟨rfl, -⟩ := List.cons_prefix_cons.1 h
  exact List.mem_cons_self ..

theorem infix_append_cons_of_notMem {wanted : List Char} {c : Char} (hc : c ∉ wanted)
    {before after : List Char} (h : wanted <:+: before ++ c :: after) :
    wanted <:+: before ∨ wanted <:+: after := by
  rw [List.infix_append_iff_ne_nil, List.infix_cons_iff] at h
  rcases h with h | (h | h) | ⟨front, back, -, hback, rfl, -, h⟩
  · exact .inl h
  · by_cases hnil : wanted = []
    · exact .inl (hnil ▸ List.nil_infix)
    · exact absurd (mem_of_prefix_cons hnil h) hc
  · exact .inr h
  · exact absurd (List.mem_append_right front (mem_of_prefix_cons hback h)) hc

theorem infix_of_infix_append {wanted before after : List Char} (hnil : wanted ≠ [])
    (hforeign : ∀ c ∈ after, c ∉ wanted) (h : wanted <:+: before ++ after) :
    wanted <:+: before := by
  have hnone : ∀ part, part ≠ [] → part ⊆ wanted → ¬ part ⊆ after := by
    intro part hpart hwanted hafter
    obtain ⟨c, part, rfl⟩ := List.exists_cons_of_ne_nil hpart
    have hc := List.mem_cons_self (a := c) (l := part)
    exact hforeign c (hafter hc) (hwanted hc)
  rcases List.infix_append_iff_ne_nil.1 h with h | h | ⟨front, back, -, hback, rfl, -, h⟩
  · exact h
  · exact absurd h.subset (hnone wanted hnil (List.Subset.refl _))
  · exact absurd h.subset (hnone back hback (List.subset_append_right front back))

/-- The two parts of a pair. -/
theorem eq_of_pair_eq_append {x y : Char} {front back : List Char} (hfront : front ≠ [])
    (hback : back ≠ []) (h : [x, y] = front ++ back) : front = [x] ∧ back = [y] := by
  obtain ⟨d, front, rfl⟩ := List.exists_cons_of_ne_nil hfront
  cases front with
  | nil => simpa [eq_comm] using h
  | cons e front => simp_all

/-- Where two neighbours can stand in a text that is joined by a character. -/
theorem cases_of_pair_infix_append_cons {x y c : Char} {before after : List Char}
    (h : [x, y] <:+: before ++ c :: after) :
    [x, y] <:+: before ∨ [x, y] <:+: after ∨
      x ∈ before.getLast? ∧ y = c ∨ x = c ∧ [y] <+: after := by
  rw [List.infix_append_iff_ne_nil, List.infix_cons_iff] at h
  rcases h with h | (h | h) | ⟨front, back, hfront, hback, hpair, hsuffix, hfirst⟩
  · exact .inl h
  · exact .inr (.inr (.inr (List.cons_prefix_cons.1 h)))
  · exact .inr (.inl h)
  · -- one of the neighbours on each side
    obtain ⟨rfl, rfl⟩ := eq_of_pair_eq_append hfront hback hpair
    obtain ⟨rest, rfl⟩ := hsuffix
    obtain ⟨rfl, -⟩ := List.cons_prefix_cons.1 hfirst
    exact .inr (.inr (.inl ⟨List.getLast?_concat, rfl⟩))

section Replace

variable {pattern replacement wanted : List Char}

/-! ### The steps of a replacement -/

theorem replaceAll_append (hpattern : pattern ≠ []) (text : List Char) :
    replaceAll pattern replacement (pattern ++ text) =
      replacement ++ replaceAll pattern replacement text := by
  obtain ⟨c, rest, rfl⟩ := List.exists_cons_of_ne_nil hpattern
  have hfront : (c :: rest).isPrefixOf (c :: (rest ++ text)) = true := by simp
  rw [List.cons_append, replaceAll_cons, if_pos hfront, List.length_cons, Nat.add_sub_cancel,
    List.drop_left]

theorem replaceAll_cons_of_not_front {c : Char} {text : List Char}
    (h : ¬ pattern <+: c :: text) :
    replaceAll pattern replacement (c :: text) = c :: replaceAll pattern replacement text := by
  rw [replaceAll_cons, if_neg (by rwa [List.isPrefixOf_iff_prefix])]

/-- Induction along a replacement, which goes on behind an occurrence, and at the next character
otherwise. -/
@[elab_as_elim]
theorem replace_induction {motive : List Char → Prop} (hpattern : pattern ≠ []) (nil : motive [])
    (found : ∀ after, motive after → motive (pattern ++ after))
    (kept : ∀ c after, ¬ pattern <+: c :: after → motive after → motive (c :: after))
    (text : List Char) : motive text := by
  induction hlength : text.length using Nat.strong_induction_on generalizing text with
  | _ n ih =>
    by_cases hfront : pattern <+: text
    · obtain ⟨after, rfl⟩ := hfront
      have hshort : after.length < n := by
        have hpos := List.length_pos_of_ne_nil hpattern
        rw [← hlength, List.length_append]
        omega
      exact found after (ih _ hshort after rfl)
    · cases text with
      | nil => exact nil
      | cons c text =>
        have hshort : text.length < n := by
          rw [← hlength]
          exact Nat.lt_succ_self _
        exact kept c text hfront (ih _ hshort text rfl)

/-- **A replacement works on two neighbours separately**, if no occurrence of the pattern lies
across their seam. -/
theorem replaceAll_append_of_seam (hpattern : pattern ≠ []) {before after : List Char}
    (hseam : ∀ front back, front ≠ [] → back ≠ [] → pattern = front ++ back →
      front <:+ before → ¬ back <+: after) :
    replaceAll pattern replacement (before ++ after) =
      replaceAll pattern replacement before ++ replaceAll pattern replacement after := by
  induction before using replace_induction hpattern with
  | nil => rfl
  | found rest ih =>
    -- what is left ends as the text does, so that no occurrence lies across its seam
    have hrest := ih fun front back hfront hback heq hsuffix =>
      hseam front back hfront hback heq (hsuffix.trans (List.suffix_append _ _))
    rw [List.append_assoc, replaceAll_append hpattern, replaceAll_append hpattern, hrest,
      List.append_assoc]
  | kept c rest hnot ih =>
    have hrest := ih fun front back hfront hback heq hsuffix =>
      hseam front back hfront hback heq (hsuffix.trans (List.suffix_cons c rest))
    have hacross : ¬ pattern <+: c :: (rest ++ after) := by
      intro hfront
      rcases List.prefix_or_prefix_of_prefix hfront (List.prefix_append (c :: rest) after)
        with h | ⟨back, rfl⟩
      · exact hnot h
      · have hback : back ≠ [] := by
          rintro rfl
          exact hnot (by rw [List.append_nil])
        have hbehind : back <+: after := (List.prefix_append_right_inj (c :: rest)).1 hfront
        exact hseam _ back (List.cons_ne_nil _ _) hback rfl List.suffix_rfl hbehind
    rw [List.cons_append, replaceAll_cons_of_not_front hacross, replaceAll_cons_of_not_front hnot,
      hrest, List.cons_append]

/-- A pattern that does not occur is not replaced. -/
theorem replaceAll_eq_self_of_absent {text : List Char} (h : ¬ pattern <:+: text) :
    replaceAll pattern replacement text = text := by
  induction text with
  | nil => rfl
  | cons c text ih =>
    have hfront : ¬ pattern <+: c :: text := fun hfirst => h hfirst.isInfix
    rw [replaceAll_cons_of_not_front hfront, ih fun hoccurs => h (List.infix_cons hoccurs)]

/-! ### Where a text begins after a replacement -/

/-- The first character after a replacement is that of the replacement, or it has stayed. -/
theorem cases_of_singleton_prefix_replaceAll {c : Char} (hpattern : pattern ≠ [])
    (hreplacement : replacement ≠ []) {text : List Char}
    (h : [c] <+: replaceAll pattern replacement text) :
    ([c] <+: replacement ∧ pattern <+: text) ∨ [c] <+: text := by
  by_cases hfront : pattern <+: text
  · obtain ⟨after, rfl⟩ := hfront
    obtain ⟨r, rest, rfl⟩ := List.exists_cons_of_ne_nil hreplacement
    rw [replaceAll_append hpattern, List.cons_append] at h
    obtain ⟨rfl, -⟩ := List.cons_prefix_cons.1 h
    exact .inl ⟨List.cons_prefix_cons.2 ⟨rfl, List.nil_prefix⟩, List.prefix_append _ _⟩
  · cases text with
    | nil => exact .inr h
    | cons d text =>
      rw [replaceAll_cons_of_not_front hfront] at h
      obtain ⟨rfl, -⟩ := List.cons_prefix_cons.1 h
      exact .inr (List.cons_prefix_cons.2 ⟨rfl, List.nil_prefix⟩)

/-- What stands in front of a text after a replacement has stood there before, if nothing
of it can be what the replacement brings in. -/
theorem prefix_of_prefix_replaceAll (hclear : Clear wanted replacement) {text : List Char}
    (h : wanted <+: replaceAll pattern replacement text) : wanted <+: text := by
  induction text generalizing wanted with
  | nil => exact h
  | cons c text ih =>
    cases wanted with
    | nil => exact List.nil_prefix
    | cons w wanted =>
      rw [replaceAll_cons] at h
      split at h
      · -- the text would meet the replacement in front of it
        obtain ⟨hfront, hbehind⟩ := hclear _ (List.cons_ne_nil w wanted) List.suffix_rfl
        rcases List.prefix_or_prefix_of_prefix h (List.prefix_append _ _) with hmeet | hmeet
        · exact absurd hmeet hfront
        · exact absurd hmeet hbehind
      · obtain ⟨rfl, hrest⟩ := List.cons_prefix_cons.1 h
        exact List.cons_prefix_cons.2 ⟨rfl, ih hclear.tail hrest⟩

/-- `wanted` begins, in the outcome of a replacement, with what became of the front of a
text that was left to be searched. -/
inductive BeginsAt (pattern replacement wanted : List Char) : List Char → Prop
  /-- In what stands in the place of an occurrence. -/
  | replaced {s after : List Char} (hs : s ≠ []) (hsuffix : s <:+ replacement)
      (hfirst : wanted <+: s ++ replaceAll pattern replacement after) :
      BeginsAt pattern replacement wanted (pattern ++ after)
  /-- At a character that has stayed. -/
  | kept {c : Char} {after : List Char} (hnot : ¬ pattern <+: c :: after)
      (hfirst : wanted <+: c :: replaceAll pattern replacement after) :
      BeginsAt pattern replacement wanted (c :: after)

/-- **Where an occurrence begins after a replacement**: in a replacement, or at a character
that has stayed. -/
theorem exists_beginsAt (hpattern : pattern ≠ []) (hwanted : wanted ≠ []) {text : List Char}
    (h : wanted <:+: replaceAll pattern replacement text) :
    ∃ rest, rest <:+ text ∧ BeginsAt pattern replacement wanted rest := by
  induction text using replace_induction hpattern with
  | nil => exact absurd (List.infix_nil.1 h) hwanted
  | found after ih =>
    rw [replaceAll_append hpattern, List.infix_append_iff_ne_nil] at h
    -- in the replacement, in what follows it, or over the seam between the two
    rcases h with h | h | ⟨front, back, hnil, -, rfl, hfront, hback⟩
    · obtain ⟨s, hfirst, hsuffix⟩ := List.infix_iff_prefix_suffix.1 h
      have hs : s ≠ [] := by
        rintro rfl
        exact hwanted (List.prefix_nil.1 hfirst)
      exact ⟨_, List.suffix_rfl, .replaced hs hsuffix (hfirst.trans (List.prefix_append _ _))⟩
    · obtain ⟨rest, hrest, hbegins⟩ := ih h
      exact ⟨rest, hrest.trans (List.suffix_append _ _), hbegins⟩
    · exact ⟨_, List.suffix_rfl,
        .replaced hnil hfront ((List.prefix_append_right_inj front).2 hback)⟩
  | kept c after hnot ih =>
    rw [replaceAll_cons_of_not_front hnot, List.infix_cons_iff] at h
    rcases h with h | h
    · exact ⟨_, List.suffix_rfl, .kept hnot h⟩
    · obtain ⟨rest, hrest, hbegins⟩ := ih h
      exact ⟨rest, hrest.trans (List.suffix_cons c after), hbegins⟩

/-- **A replacement makes no occurrence of a text that is apart from what it brings in**, and
leaves none of its own pattern. -/
theorem not_infix_replaceAll (hpattern : pattern ≠ []) (hwanted : wanted ≠ [])
    (hapart : Apart wanted replacement) {text : List Char}
    (h : wanted = pattern ∨ ¬ wanted <:+: text) :
    ¬ wanted <:+: replaceAll pattern replacement text := by
  intro hoccurs
  obtain ⟨hclear, hclear'⟩ := hapart
  obtain ⟨rest, hrest, hbegins⟩ := exists_beginsAt hpattern hwanted hoccurs
  cases hbegins with
  | replaced hs hsuffix hfirst =>
    obtain ⟨hfront, hbehind⟩ := hclear' _ hs hsuffix
    rcases List.prefix_or_prefix_of_prefix hfirst (List.prefix_append _ _) with hmeet | hmeet
    · exact hbehind hmeet
    · exact hfront hmeet
  | @kept c after hnot hfirst =>
    obtain ⟨w, back, rfl⟩ := List.exists_cons_of_ne_nil hwanted
    obtain ⟨rfl, hback⟩ := List.cons_prefix_cons.1 hfirst
    -- an occurrence at a character that has stayed was there before
    have hbefore : w :: back <+: w :: after :=
      List.cons_prefix_cons.2 ⟨rfl, prefix_of_prefix_replaceAll hclear.tail hback⟩
    rcases h with rfl | h
    · exact hnot hbefore
    · exact h (hbefore.isInfix.trans hrest.isInfix)

end Replace

/-! ### Spaces around a mark -/

section Mark

variable {mark : Char} {text : List Char}

/-- An occurrence after a replacement by a single character begins with that character, or
where it began before. -/
theorem exists_of_cons_infix_replaceAll {pattern back : List Char} {c : Char}
    (hpattern : pattern ≠ []) (h : c :: back <:+: replaceAll pattern [mark] text) :
    ∃ after, back <+: replaceAll pattern [mark] after ∧
      (c = mark ∧ pattern ++ after <:+ text ∨ c :: after <:+ text ∧ ¬ pattern <+: c :: after) := by
  obtain ⟨rest, hrest, hbegins⟩ := exists_beginsAt hpattern (List.cons_ne_nil _ _) h
  cases hbegins with
  | @replaced s after hs hsuffix hfirst =>
    have hmark : s = [mark] := by
      rcases List.suffix_cons_iff.1 hsuffix with hs' | hnil
      · exact hs'
      · exact absurd (List.suffix_nil.1 hnil) hs
    rw [hmark] at hfirst
    obtain ⟨rfl, hback⟩ := List.cons_prefix_cons.1 hfirst
    exact ⟨after, hback, .inl ⟨rfl, hrest⟩⟩
  | @kept d after hnot hfirst =>
    obtain ⟨rfl, hback⟩ := List.cons_prefix_cons.1 hfirst
    exact ⟨after, hback, .inr ⟨hrest, hnot⟩⟩

/-- Spaces in front of a mark are all gone once they are dropped, if none was double. -/
theorem not_infix_dropBefore (hmark : mark ≠ ' ') (hsingle : ¬ [' ', ' '] <:+: text) :
    ¬ [' ', mark] <:+: replaceAll [' ', mark] [mark] text := by
  intro hoccurs
  obtain ⟨after, hback, ⟨heq, -⟩ | ⟨hsuffix, hnot⟩⟩ :=
    exists_of_cons_infix_replaceAll (List.cons_ne_nil _ _) hoccurs
  · exact hmark heq.symm
  · rcases cases_of_singleton_prefix_replaceAll (List.cons_ne_nil _ _) (List.cons_ne_nil _ _)
      hback with ⟨-, rest, rfl⟩ | hafter
    · have hdouble : [' ', ' '] <:+: ' ' :: ([' ', mark] ++ rest) := ⟨[], mark :: rest, rfl⟩
      exact hsingle (hdouble.trans hsuffix.isInfix)
    · exact hnot (List.cons_prefix_cons.2 ⟨rfl, hafter⟩)

/-- Spaces behind a mark are all gone once they are dropped, if none was double. -/
theorem not_infix_dropBehind (hmark : mark ≠ ' ') (hsingle : ¬ [' ', ' '] <:+: text) :
    ¬ [mark, ' '] <:+: replaceAll [mark, ' '] [mark] text := by
  intro hoccurs
  obtain ⟨after, hback, hcases⟩ := exists_of_cons_infix_replaceAll (List.cons_ne_nil _ _) hoccurs
  have hspace : [' '] <+: after := by
    rcases cases_of_singleton_prefix_replaceAll (List.cons_ne_nil _ _) (List.cons_ne_nil _ _)
      hback with ⟨hfront, -⟩ | hafter
    · exact absurd (List.cons_prefix_cons.1 hfront).1.symm hmark
    · exact hafter
  rcases hcases with ⟨-, hsuffix⟩ | ⟨-, hnot⟩
  · obtain ⟨rest, rfl⟩ := hspace
    have hdouble : [' ', ' '] <:+: [mark, ' '] ++ ([' '] ++ rest) := ⟨[mark], rest, rfl⟩
    exact hsingle (hdouble.trans hsuffix.isInfix)
  · exact hnot (List.cons_prefix_cons.2 ⟨rfl, hspace⟩)

/-- No space comes to stand in front of a mark when those behind it are dropped. -/
theorem not_infix_dropBehind_of_absent (hmark : mark ≠ ' ') (h : ¬ [' ', mark] <:+: text) :
    ¬ [' ', mark] <:+: replaceAll [mark, ' '] [mark] text := by
  intro hoccurs
  obtain ⟨after, hback, ⟨heq, -⟩ | ⟨hsuffix, -⟩⟩ :=
    exists_of_cons_infix_replaceAll (List.cons_ne_nil _ _) hoccurs
  · exact hmark heq.symm
  · have hafter : [mark] <+: after := by
      rcases cases_of_singleton_prefix_replaceAll (List.cons_ne_nil _ _) (List.cons_ne_nil _ _)
        hback with ⟨-, hfront⟩ | hafter
      · exact (List.prefix_append [mark] [' ']).trans hfront
      · exact hafter
    have hbefore : [' ', mark] <+: ' ' :: after := List.cons_prefix_cons.2 ⟨rfl, hafter⟩
    exact h (hbefore.isInfix.trans hsuffix.isInfix)

end Mark

end ExactUnits.Text
