import ExactUnits.Proofs.Monomial.Written

/-!
# Monomials with different texts

The text of a monomial can be taken apart again.  The bar parts the two groups, stars part the
powers of a group, and a caret parts the name of a power from its exponent; so the text says what
the groups are, as long as no name has one of these marks in it.  Two texts have a meaning of their
own, that of an empty group and that of the empty product, and must not be names.

## Main definitions

* `powerOf`, `groupOf`, `groupsOf` — what a text says, from a power up to a monomial.
* `Legible` — monomials whose names have no marks and are not reserved.

## Main results

* `IsUnmarkedGroup.groupOf_groupText` — a group is found in its text.
* `Legible.groupsOf_text` — **the groups of a monomial are found in its text.**
* `Legible.eq_of_text` — a monomial is determined by its text.
-/

namespace ExactUnits.Monomial

open Text

/-! ### Powers -/

/-- What the text of a power says: a name, and its exponent behind a caret. -/
def powerOf (text : List Char) : String × ℤ :=
  let cut := cutAt (· == '^') text
  (String.ofList cut.1, (cut.2.map fun digits => (Literal.digitsValue digits : ℤ)).getD 1)

theorem powerOf_powerText {name : String} {n : ℤ} (hname : '^' ∉ name.toList) (hn : 0 < n) :
    powerOf (powerText name n) = (name, n) := by
  unfold powerOf powerText
  by_cases hone : n = 1
  · rw [if_pos hone, cutAt_of_notMem hname, hone]
    simp
  · have habs : (n.natAbs : ℤ) = n := Int.natAbs_of_nonneg hn.le
    rw [if_neg hone, cutAt_of_first hname, Number.intText_of_nonneg hn.le]
    simp [habs]

/-! ### Groups -/

/-- A name without the marks of products, quotients and powers. -/
def Unmarked (name : String) : Prop :=
  '*' ∉ name.toList ∧ '/' ∉ name.toList ∧ '^' ∉ name.toList

instance (name : String) : Decidable (Unmarked name) := inferInstanceAs (Decidable (_ ∧ _))

/-- The exponents of a group are positive, and its names have no marks. -/
def IsUnmarkedGroup (group : List (String × ℤ)) : Prop := ∀ p ∈ group, 0 < p.2 ∧ Unmarked p.1

/-- What the text of a group says: its powers, parted by stars, or a `1` for none. -/
def groupOf (text : List Char) : List (String × ℤ) :=
  if text = ['1'] then [] else (text.splitOn '*').map powerOf

namespace IsUnmarkedGroup

variable {group : List (String × ℤ)}

theorem notMem_powerText (h : IsUnmarkedGroup group) {c : Char} (hc : c = '*' ∨ c = '/') :
    ∀ p ∈ group, c ∉ powerText p.1 p.2 := by
  intro p hp hmem
  obtain ⟨hpos, hstar, hbar, -⟩ := h p hp
  rcases cases_of_mem_powerText hpos hmem with hname | hcaret | hdigit
  · rcases hc with rfl | rfl
    · exact hstar hname
    · exact hbar hname
  · rcases hc with rfl | rfl <;> cases hcaret
  · rcases hc with rfl | rfl <;> cases hdigit

theorem bar_notMem (h : IsUnmarkedGroup group) : '/' ∉ groupText group := by
  intro hmem
  rcases cases_of_mem_groupText hmem with hone | hstar | ⟨p, hp, hmem⟩
  · cases hone
  · cases hstar
  · exact h.notMem_powerText (.inr rfl) p hp hmem

theorem map_powerOf_splitOn (h : IsUnmarkedGroup group) (hnil : group ≠ []) :
    ((groupText group).splitOn '*').map powerOf = group := by
  have hstar : ∀ part ∈ group.map fun p => powerText p.1 p.2, '*' ∉ part := by
    intro part hpart
    obtain ⟨p, hp, rfl⟩ := List.mem_map.1 hpart
    exact h.notMem_powerText (.inl rfl) p hp
  have hparts : (group.map fun p => powerText p.1 p.2) ≠ [] := by simpa using hnil
  have hpower : ∀ p ∈ group, powerOf (powerText p.1 p.2) = p := by
    intro p hp
    obtain ⟨hpos, -, -, hcaret⟩ := h p hp
    exact powerOf_powerText hcaret hpos
  unfold groupText productText
  rw [if_neg hnil, List.splitOn_intercalate '*' hstar hparts, List.map_map]
  exact (List.map_congr_left hpower).trans (List.map_id group)

/-- A text without marks that is not a name is not the text of a group. -/
theorem groupText_ne (h : IsUnmarkedGroup group) (hnil : group ≠ []) {reserved : String}
    (hreserved : Unmarked reserved) (hname : ∀ p ∈ group, p.1 ≠ reserved) :
    groupText group ≠ reserved.toList := by
  obtain ⟨hstar, -, hcaret⟩ := hreserved
  intro htext
  have hgroup := h.map_powerOf_splitOn hnil
  -- the text would be that of a single name
  have hsplit : reserved.toList.splitOn '*' = [reserved.toList] := by
    have hself := List.splitOn_intercalate '*' (by simpa using hstar)
      (List.cons_ne_nil reserved.toList [])
    rwa [List.intercalate_singleton] at hself
  have hpower : powerOf reserved.toList = (reserved, 1) := by
    have hone : powerText reserved 1 = reserved.toList := if_pos rfl
    rw [← hone]
    exact powerOf_powerText hcaret one_pos
  rw [htext, hsplit, List.map_singleton, hpower] at hgroup
  exact hname (reserved, 1) (hgroup ▸ List.mem_singleton_self _) rfl

/-- **A group is found in its text**, unless a name of it is the text of the empty group. -/
theorem groupOf_groupText (h : IsUnmarkedGroup group) (hname : ∀ p ∈ group, p.1 ≠ "1") :
    groupOf (groupText group) = group := by
  unfold groupOf
  by_cases hnil : group = []
  · subst hnil
    rfl
  · have hne : groupText group ≠ ['1'] := h.groupText_ne hnil (by decide) hname
    rw [if_neg hne]
    exact h.map_powerOf_splitOn hnil

end IsUnmarkedGroup

/-! ### Monomials -/

/-- What the text of a monomial says: its groups, parted by a bar, or that it is the empty
product. -/
def groupsOf (empty text : List Char) : List (String × ℤ) × List (String × ℤ) :=
  if text = empty then ([], [])
  else
    let cut := cutAt (· == '/') text
    (groupOf cut.1, (cut.2.map groupOf).getD [])

/-- A monomial whose text can be taken apart: no name has a mark in it, and no name is one of the
texts with a meaning of their own.  The least exponent is left out, since its magnitude is not an
exponent. -/
structure Legible (reserved : List String) (m : Monomial) : Prop where
  /-- Names have no stars, bars and carets. -/
  unmarked : ∀ n, m.exponent n ≠ 0 → Unmarked n
  /-- The reserved texts are not names. -/
  unreserved : ∀ n ∈ reserved, m.exponent n = 0
  /-- The magnitude of every exponent can be stored. -/
  magnitude : ∀ n, m.exponent n ≠ -2147483648

theorem legible_iff {reserved : List String} {m : Monomial} :
    Legible reserved m ↔
      ∀ p ∈ m.factors, Unmarked p.1 ∧ p.1 ∉ reserved ∧ p.2.toInt ≠ -2147483648 := by
  constructor
  · intro h p hp
    have hne := exponent_ne_zero_of_mem hp
    refine ⟨h.unmarked p.1 hne, fun hmem => hne (h.unreserved p.1 hmem), ?_⟩
    rw [← exponent_of_mem hp]
    exact h.magnitude p.1
  · intro h
    have hfactor : ∀ n, m.exponent n ≠ 0 →
        Unmarked n ∧ n ∉ reserved ∧ m.exponent n ≠ -2147483648 := by
      intro n hn
      obtain ⟨e, he⟩ := mem_factors_of_exponent_ne_zero hn
      rw [exponent_of_mem he]
      exact h _ he
    refine ⟨fun n hn => (hfactor n hn).1, fun n hn => ?_, fun n hmin => ?_⟩
    · by_contra hne
      exact (hfactor n hne).2.1 hn
    · exact (hfactor n (by rw [hmin]; decide)).2.2 hmin

instance (reserved : List String) (m : Monomial) : Decidable (Legible reserved m) :=
  decidable_of_iff _ legible_iff.symm

namespace Legible

variable {reserved : List String} {a b m : Monomial} {empty : String}

theorem above (h : Legible reserved m) : IsUnmarkedGroup m.above := forall_mem_above h.unmarked

theorem below (h : Legible reserved m) : IsUnmarkedGroup m.below := forall_mem_below h.unmarked

theorem notMem_reserved (h : Legible reserved m) : ∀ n, m.exponent n ≠ 0 → n ∉ reserved :=
  fun n hn hmem => hn (h.unreserved n hmem)

theorem ne_of_mem_above (h : Legible reserved m) {n : String} (hn : n ∈ reserved) :
    ∀ p ∈ m.above, p.1 ≠ n := by
  rintro p hp rfl
  exact (forall_mem_above h.notMem_reserved p hp).2 hn

theorem ne_of_mem_below (h : Legible reserved m) {n : String} (hn : n ∈ reserved) :
    ∀ p ∈ m.below, p.1 ≠ n := by
  rintro p hp rfl
  exact (forall_mem_below h.notMem_reserved p hp).2 hn

theorem hasLeast (h : Legible reserved m) : m.hasLeast = false :=
  hasLeast_eq_false_iff.2 h.magnitude

/-- **The groups of a monomial are found in its text.** -/
theorem groupsOf_text (h : Legible reserved m) (hone : "1" ∈ reserved) (hempty : empty ∈ reserved)
    (hmarks : Unmarked empty) : groupsOf empty.toList (text empty.toList m) = (m.above, m.below) := by
  have habove := h.above.groupOf_groupText (h.ne_of_mem_above hone)
  have hbelow := h.below.groupOf_groupText (h.ne_of_mem_below hone)
  unfold groupsOf
  rw [text_eq_ite _ h.hasLeast]
  -- without a bar the text is one group, unless it is that of the empty monomial
  by_cases hbar : m.below = []
  · rw [if_pos hbar, hbar]
    by_cases hnil : m.above = []
    · rw [if_pos hnil, if_pos rfl, hnil]
    · have hne := h.above.groupText_ne hnil hmarks (h.ne_of_mem_above hempty)
      rw [if_neg hnil, if_neg hne, cutAt_of_notMem h.above.bar_notMem]
      exact Prod.ext habove rfl
  · have hne : groupText m.above ++ '/' :: groupText m.below ≠ empty.toList := by
      intro heq
      exact hmarks.2.1 (heq ▸ List.mem_append_right _ (List.mem_cons_self ..))
    rw [if_neg hbar, if_neg hne, cutAt_of_first h.above.bar_notMem]
    exact Prod.ext habove hbelow

/-- **A monomial is determined by its text.** -/
theorem eq_of_text (ha : Legible reserved a) (hb : Legible reserved b) (hone : "1" ∈ reserved)
    (hempty : empty ∈ reserved) (hmarks : Unmarked empty)
    (h : text empty.toList a = text empty.toList b) : a = b := by
  have hgroups : (a.above, a.below) = (b.above, b.below) := by
    rw [← ha.groupsOf_text hone hempty hmarks, h, hb.groupsOf_text hone hempty hmarks]
  obtain ⟨habove, hbelow⟩ := Prod.mk.inj hgroups
  refine toFinsupp_injective ?_
  rw [toFinsupp_eq_sub, toFinsupp_eq_sub, habove, hbelow]

end Legible

end ExactUnits.Monomial
