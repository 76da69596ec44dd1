import ExactUnits.Monomial.Text
import ExactUnits.Proofs.Monomial.Exponents
import ExactUnits.Proofs.Normal.Plain
import ExactUnits.Proofs.Number.Written

/-!
# Written monomials

A monomial is written as two groups of powers around a bar, the second one left out if
it is empty, and an empty first group written as `1`.  The difference of the groups is
the monomial.  The least exponent is the one whose magnitude is not an exponent, so the
text is that of the groups only if it does not occur.  If the names of the monomial are
made of letters and underscores, the text is plain, and its normal spelling has the same
groups, with the names in their regional spelling.

## Main definitions

* `above`, `below` — the powers in front of the bar and behind it.
* `groupText`, `normalPower` — a group as it is written, and a power in normal spelling.
* `groupSum` — the exponents in a group as a function of finite support.

## Main results

* `hasLeast_eq_false_iff` — when the least exponent does not occur.
* `text_eq_ite`, `text_eq` — the text of a monomial by its groups.
* `toFinsupp_eq_sub` — **the exponents of a monomial are those of its groups.**
* `regionalChars_groupText` — a group in normal spelling.
-/

namespace ExactUnits.Monomial

open Text

/-! ### The least exponent -/

/-- In 32 bits, the negation of an exponent other than the least is its negation. -/
theorem toInt_neg_exponent {e : Exponent} (h : e.toInt ≠ -2147483648) :
    (-e).toInt = -e.toInt := by
  have hbounds := Exponent.fits_toInt e
  unfold Exponent.Fits at hbounds
  rw [Int32.toInt_neg]
  exact Int.bmod_eq_of_le (by omega) (by omega)

theorem hasLeast_eq_false_iff {m : Monomial} :
    m.hasLeast = false ↔ ∀ n, m.exponent n ≠ -2147483648 := by
  rw [← forall_factors_iff (P := fun n => n ≠ -2147483648) (by decide), hasLeast,
    List.any_eq_false]
  refine forall₂_congr fun p _ => ?_
  rw [beq_iff_eq, ← Int32.toInt_inj, Int32.toInt_minValue]
  norm_num

/-- The least exponent is far beyond the exponents that are read. -/
theorem hasLeast_eq_false_of_abs_le {m : Monomial} (h : ∀ n, |m.exponent n| ≤ 1000) :
    m.hasLeast = false := by
  refine hasLeast_eq_false_iff.2 fun n hn => ?_
  have hbound := h n
  rw [hn] at hbound
  exact absurd hbound (by decide)

theorem hasLeast_atom (name : String) : (atom name).hasLeast = false := by
  refine hasLeast_eq_false_iff.2 fun n => ?_
  rw [exponent_atom]
  split <;> decide

/-! ### The groups -/

/-- The powers with a positive exponent. -/
def above (m : Monomial) : List (String × ℤ) :=
  (m.factors.filter fun p => 0 < p.2.toInt).map fun p => (p.1, p.2.toInt)

/-- The powers with a negative exponent, each with the magnitude of the exponent. -/
def below (m : Monomial) : List (String × ℤ) :=
  (m.factors.filter fun p => p.2.toInt < 0).map fun p => (p.1, -p.2.toInt)

variable {m : Monomial}

theorem mem_above {p : String × ℤ} (h : p ∈ m.above) : 0 < p.2 ∧ m.exponent p.1 = p.2 := by
  obtain ⟨q, hq, rfl⟩ := List.mem_map.1 h
  obtain ⟨hmem, hpos⟩ := List.mem_filter.1 hq
  exact ⟨of_decide_eq_true hpos, exponent_of_mem hmem⟩

theorem mem_below {p : String × ℤ} (h : p ∈ m.below) : 0 < p.2 ∧ m.exponent p.1 = -p.2 := by
  obtain ⟨q, hq, rfl⟩ := List.mem_map.1 h
  obtain ⟨hmem, hneg⟩ := List.mem_filter.1 hq
  refine ⟨Int.neg_pos_of_neg (of_decide_eq_true hneg), ?_⟩
  rw [neg_neg]
  exact exponent_of_mem hmem

/-- What holds of the names of a monomial holds of those above the bar, where exponents are
positive. -/
theorem forall_mem_above {P : String → Prop} (h : ∀ n, m.exponent n ≠ 0 → P n) :
    ∀ p ∈ m.above, 0 < p.2 ∧ P p.1 := by
  intro p hp
  obtain ⟨hpos, hexponent⟩ := mem_above hp
  exact ⟨hpos, h p.1 (by rw [hexponent]; exact hpos.ne')⟩

/-- What holds of the names of a monomial holds of those below the bar, where magnitudes are
positive. -/
theorem forall_mem_below {P : String → Prop} (h : ∀ n, m.exponent n ≠ 0 → P n) :
    ∀ p ∈ m.below, 0 < p.2 ∧ P p.1 := by
  intro p hp
  obtain ⟨hpos, hexponent⟩ := mem_below hp
  exact ⟨hpos, h p.1 (by rw [hexponent]; exact neg_ne_zero.2 hpos.ne')⟩

theorem length_above_add_length_below (m : Monomial) :
    m.above.length + m.below.length ≤ m.factors.length := by
  unfold above below
  rw [List.length_map, List.length_map]
  induction m.factors with
  | nil => exact le_rfl
  | cons p factors ih =>
    simp only [List.filter_cons, decide_eq_true_eq]
    split <;> split <;> simp only [List.length_cons] <;> omega

/-- The exponents that a group of powers adds up to. -/
noncomputable def groupSum (group : List (String × ℤ)) : String →₀ ℤ :=
  (group.map fun p => Finsupp.single p.1 p.2).sum

theorem groupSum_cons (p : String × ℤ) (group : List (String × ℤ)) :
    groupSum (p :: group) = Finsupp.single p.1 p.2 + groupSum group := by
  unfold groupSum
  rw [List.map_cons, List.sum_cons]

/-- **The exponents of a monomial are those above the bar less those below.** -/
theorem toFinsupp_eq_sub (m : Monomial) : m.toFinsupp = groupSum m.above - groupSum m.below := by
  have hsum : m.toFinsupp = (m.factors.map fun p => Finsupp.single p.1 p.2.toInt).sum := by
    rw [sum_factors m fun n e => Finsupp.single n e, Finsupp.sum_single]
  rw [hsum]
  unfold above below
  induction m.factors with
  | nil => exact (sub_self 0).symm
  | cons p factors ih =>
    rw [List.map_cons, List.sum_cons, ih]
    -- the sign of the exponent says which group the power is in
    rcases lt_trichotomy p.2.toInt 0 with hp | hp | hp
    · rw [List.filter_cons_of_neg (by simp; omega), List.filter_cons_of_pos (by simpa using hp),
        List.map_cons, groupSum_cons, Finsupp.single_neg]
      abel
    · rw [List.filter_cons_of_neg (by simp; omega), List.filter_cons_of_neg (by simp; omega), hp,
        Finsupp.single_zero, zero_add]
    · rw [List.filter_cons_of_pos (by simpa using hp), List.filter_cons_of_neg (by simp; omega),
        List.map_cons, groupSum_cons]
      abel

/-! ### The text by groups -/

/-- The text of a group of powers; the empty group is a `1`. -/
def groupText (group : List (String × ℤ)) : List Char :=
  if group = [] then ['1'] else productText (group.map fun p => powerText p.1 p.2)

theorem text_eq_ite (empty : List Char) (hleast : m.hasLeast = false) :
    text empty m =
      if m.below = [] then if m.above = [] then empty else groupText m.above
      else groupText m.above ++ '/' :: groupText m.below := by
  have habove : m.numeratorTexts = m.above.map fun p => powerText p.1 p.2 := by
    unfold numeratorTexts above
    rw [List.map_map]
    rfl
  have hbelow : m.denominatorTexts = m.below.map fun p => powerText p.1 p.2 := by
    unfold denominatorTexts below
    rw [List.map_map]
    refine List.map_congr_left fun p hp => ?_
    have hne := hasLeast_eq_false_iff.1 hleast p.1
    rw [exponent_of_mem (List.mem_filter.1 hp).1] at hne
    exact congrArg (powerText p.1) (toInt_neg_exponent hne)
  unfold text groupText
  rw [habove, hbelow]
  cases m.above <;> cases m.below <;> rfl

/-- If the empty product is written like an empty group, it needs no case of its own. -/
theorem text_eq (hleast : m.hasLeast = false) :
    text ['1'] m =
      if m.below = [] then groupText m.above
      else groupText m.above ++ '/' :: groupText m.below := by
  have habove : (if m.above = [] then ['1'] else groupText m.above) = groupText m.above := by
    split
    · next hnil => rw [groupText, if_pos hnil]
    · rfl
  rw [text_eq_ite _ hleast, habove]

theorem text_atom (empty : List Char) (name : String) : text empty (atom name) = name.toList := by
  have hone : (1 : Exponent).toInt = 1 := by decide
  have habove : (atom name).numeratorTexts = [name.toList] := by
    simp [numeratorTexts, factors, atom, NameMap.single, hone, powerText]
  have hbelow : (atom name).denominatorTexts = [] := by
    simp [denominatorTexts, factors, atom, NameMap.single, hone]
  unfold text
  rw [habove, hbelow]
  exact List.intercalate_singleton

@[simp] theorem productText_singleton (part : List Char) : productText [part] = part :=
  List.intercalate_singleton

theorem productText_cons_cons (part next : List Char) (parts : List (List Char)) :
    productText (part :: next :: parts) = part ++ '*' :: productText (next :: parts) := by
  unfold productText
  rw [List.intercalate_cons_cons, List.append_assoc, List.singleton_append]

theorem mem_productText {parts : List (List Char)} {c : Char} (h : c ∈ productText parts) :
    c = '*' ∨ ∃ part ∈ parts, c ∈ part := by
  induction parts with
  | nil => cases h
  | cons part parts ih =>
    cases parts with
    | nil =>
      rw [productText_singleton] at h
      exact .inr ⟨part, List.mem_singleton_self part, h⟩
    | cons next parts =>
      rw [productText_cons_cons, List.mem_append, List.mem_cons] at h
      rcases h with h | h | h
      · exact .inr ⟨part, List.mem_cons_self .., h⟩
      · exact .inl h
      · exact (ih h).imp_right fun ⟨q, hq, hc⟩ => ⟨q, List.mem_cons_of_mem _ hq, hc⟩

theorem cases_of_mem_powerText {name : String} {n : ℤ} (hn : 0 < n) {c : Char}
    (h : c ∈ powerText name n) : c ∈ name.toList ∨ c = '^' ∨ c.isDigit = true := by
  unfold powerText at h
  split at h
  · exact .inl h
  · rw [Number.intText_of_nonneg hn.le] at h
    rcases List.mem_append.1 h with h | h
    · exact .inl h
    · exact .inr ((List.mem_cons.1 h).imp_right Number.isDigit_of_mem_natText)

theorem cases_of_mem_groupText {group : List (String × ℤ)} {c : Char} (h : c ∈ groupText group) :
    c = '1' ∨ c = '*' ∨ ∃ p ∈ group, c ∈ powerText p.1 p.2 := by
  unfold groupText at h
  split at h
  · exact .inl (List.mem_singleton.1 h)
  · rcases mem_productText h with hstar | ⟨part, hpart, h⟩
    · exact .inr (.inl hstar)
    · obtain ⟨p, hp, rfl⟩ := List.mem_map.1 hpart
      exact .inr (.inr ⟨p, hp, h⟩)

/-! ### The normal spelling -/

/-- A power in normal spelling. -/
def normalPower (p : String × ℤ) : List Char := regionalChars (powerText p.1 p.2)

/-- The caret keeps the exponent apart from the name. -/
theorem normalPower_of_ne {p : String × ℤ} (h : p.2 ≠ 1) :
    normalPower p = regionalChars p.1.toList ++ '^' :: Number.intText p.2 := by
  have hdigits : ∀ c ∈ Number.intText p.2, c.isAlpha = false := by
    refine Number.eq_false_of_mem_intText rfl fun c hc => ?_
    refine Bool.eq_false_iff.2 fun halpha => ?_
    have hname : isNameChar c = true := by simp [isNameChar, halpha]
    rw [isDigit_of_isNameChar hname] at hc
    cases hc
  unfold normalPower powerText
  rw [if_neg h, regionalChars_append_cons (c := '^') rfl, regionalChars_eq_self hdigits]

theorem regionalChars_productText (parts : List (List Char)) :
    regionalChars (productText parts) = productText (parts.map regionalChars) := by
  induction parts with
  | nil => rfl
  | cons part parts ih =>
    cases parts with
    | nil => simp
    | cons next parts =>
      rw [productText_cons_cons, regionalChars_append_cons (c := '*') rfl, ih, List.map_cons,
        List.map_cons, List.map_cons, productText_cons_cons]

/-- **A group keeps its powers in normal spelling.** -/
theorem regionalChars_groupText (group : List (String × ℤ)) :
    regionalChars (groupText group) =
      if group = [] then ['1'] else productText (group.map normalPower) := by
  have hone : ∀ c ∈ ['1'], c.isAlpha = false := List.forall_mem_singleton.2 rfl
  unfold groupText
  split
  · exact regionalChars_eq_self hone
  · rw [regionalChars_productText, List.map_map]
    rfl

/-! ### Characters -/

theorem plain_of_isNameChar {c : Char} (h : isNameChar c = true) :
    isPlainChar c = true ∧ c ≠ '*' ∧ c ≠ '/' :=
  ⟨isPlainChar_of_isNameChar h, ne_of_isNameChar h rfl, ne_of_isNameChar h rfl⟩

theorem plain_of_isDigit {c : Char} (h : c.isDigit = true) :
    isPlainChar c = true ∧ c ≠ '*' ∧ c ≠ '/' :=
  ⟨isPlainChar_of_isDigit h, ne_of_isDigit h rfl, ne_of_isDigit h rfl⟩

/-- The exponents of a group are positive, and its names are made of letters and
underscores and not empty. -/
def IsPlainGroup (group : List (String × ℤ)) : Prop :=
  ∀ p ∈ group, 0 < p.2 ∧ p.1.toList ≠ [] ∧ ∀ c ∈ p.1.toList, isNameChar c = true

variable {group : List (String × ℤ)}

/-- What the groups of a monomial need of its names. -/
def HasPlainNames (m : Monomial) : Prop :=
  ∀ n, m.exponent n ≠ 0 → n.toList ≠ [] ∧ ∀ c ∈ n.toList, isNameChar c = true

theorem HasPlainNames.above (h : HasPlainNames m) : IsPlainGroup m.above := forall_mem_above h

theorem HasPlainNames.below (h : HasPlainNames m) : IsPlainGroup m.below := forall_mem_below h

theorem IsPlainGroup.mem_powerText (h : IsPlainGroup group) {p : String × ℤ} (hp : p ∈ group)
    {c : Char} (hc : c ∈ powerText p.1 p.2) : isPlainChar c = true ∧ c ≠ '*' ∧ c ≠ '/' := by
  obtain ⟨hpos, -, hname⟩ := h p hp
  rcases cases_of_mem_powerText hpos hc with hc | rfl | hc
  · exact plain_of_isNameChar (hname c hc)
  · decide
  · exact plain_of_isDigit hc

theorem IsPlainGroup.mem_normalPower (h : IsPlainGroup group) {p : String × ℤ} (hp : p ∈ group)
    {c : Char} (hc : c ∈ normalPower p) : isPlainChar c = true ∧ c ≠ '*' ∧ c ≠ '/' := by
  rcases mem_regionalChars hc with hc | hc
  · exact plain_of_isNameChar hc
  · exact h.mem_powerText hp hc

theorem IsPlainGroup.mem_groupText (h : IsPlainGroup group) {c : Char} (hc : c ∈ groupText group) :
    isPlainChar c = true ∧ c ≠ '/' := by
  rcases cases_of_mem_groupText hc with rfl | rfl | ⟨p, hp, hc⟩
  · decide
  · decide
  · have hplain := h.mem_powerText hp hc
    exact ⟨hplain.1, hplain.2.2⟩

/-- Neither the text of a group nor its normal spelling has a bar. -/
theorem IsPlainGroup.bar_notMem (h : IsPlainGroup group) :
    '/' ∉ regionalChars (groupText group) := by
  intro hc
  rcases mem_regionalChars hc with hc | hc
  · cases hc
  · exact (h.mem_groupText hc).2 rfl

theorem IsPlainGroup.groupText_ne_nil (h : IsPlainGroup group) : groupText group ≠ [] := by
  unfold groupText
  split
  · exact List.cons_ne_nil _ _
  · next hnil =>
    obtain ⟨p, rest, rfl⟩ := List.exists_cons_of_ne_nil hnil
    have hpower : powerText p.1 p.2 ≠ [] := by
      have hname := (h p (List.mem_cons_self ..)).2.1
      unfold powerText
      split
      · exact hname
      · exact fun hempty => hname (List.append_eq_nil_iff.1 hempty).1
    cases rest with
    | nil => rwa [List.map_singleton, productText_singleton]
    | cons q rest =>
      rw [List.map_cons, List.map_cons, productText_cons_cons]
      exact fun hempty => hpower (List.append_eq_nil_iff.1 hempty).1

/-- The text of a monomial does not start with a bar. -/
theorem HasPlainNames.exists_text_eq_cons (h : HasPlainNames m) (hleast : m.hasLeast = false) :
    ∃ c rest, text ['1'] m = c :: rest ∧ c ≠ '/' := by
  obtain ⟨c, rest, hcons⟩ := List.exists_cons_of_ne_nil h.above.groupText_ne_nil
  have hc : c ≠ '/' := (h.above.mem_groupText (hcons ▸ List.mem_cons_self ..)).2
  rw [text_eq hleast]
  split
  · exact ⟨c, rest, hcons, hc⟩
  · exact ⟨c, rest ++ '/' :: groupText m.below, by rw [hcons, List.cons_append], hc⟩

/-- **The text of a monomial is plain if its names are.** -/
theorem HasPlainNames.isPlainChar_of_mem_text (h : HasPlainNames m) (hleast : m.hasLeast = false)
    {c : Char} (hc : c ∈ text ['1'] m) : isPlainChar c = true := by
  rw [text_eq hleast] at hc
  split at hc
  · exact (h.above.mem_groupText hc).1
  · rcases List.mem_append.1 hc with hc | hc
    · exact (h.above.mem_groupText hc).1
    · rcases List.mem_cons.1 hc with rfl | hc
      · decide
      · exact (h.below.mem_groupText hc).1

end ExactUnits.Monomial
