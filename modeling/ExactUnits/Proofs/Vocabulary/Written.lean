import ExactUnits.Dimension
import ExactUnits.Proofs.Monomial.Written
import ExactUnits.Proofs.UnitOfMeasure.Bounded
import ExactUnits.Proofs.Vocabulary.Exponent

/-!
# Reading written names

A vocabulary that knows the base units by their names, and no text that looks like a
product, a quotient or a power, reads the text of a canonical name group by group and
power by power.  Nothing fails as long as the exponents stay within their bounds, and
the unit that comes out has the name that was written.

## Main definitions

* `Fluent` — such vocabularies.
* `Fluent.Readable` — the powers whose text can be read.

## Main results

* `Fluent.readTerm_normalPower` — a written power is read as the power.
* `Fluent.readProduct_groupText` — a written group is read as a product.
* `Fluent.readNormal_text` — **a written name is read as a unit of that name.**
-/

namespace ExactUnits.Vocabulary

open Text Monomial

/-! ### Fluent vocabularies -/

/-- The vocabulary knows the base units by their names, which are made of letters and
underscores, and it knows no text that looks composed: with a star or a caret, or with a
bar but without a blank. -/
structure Fluent (vocabulary : Vocabulary) (base : String → UnitOfMeasure)
    (linear : String → Prop) : Prop where
  /-- A name that is looked up stands for its unit. -/
  known : ∀ n, linear n → vocabulary (normalize n) = some (base n)
  /-- The unit of a name has that name. -/
  name : ∀ n, linear n → (base n).name = Monomial.atom n
  /-- No unit has an offset. -/
  offset : ∀ n, linear n → (base n).offset = none
  /-- No unit is zero. -/
  factor : ∀ n, linear n → (base n).factor ≠ 0
  /-- The dimensions have small exponents. -/
  dimension : ∀ n, linear n → ∀ x, |(base n).dimension.exponent x| ≤ 1000
  /-- A name is not empty. -/
  nonempty : ∀ n, linear n → n.toList ≠ []
  /-- A name is made of letters and underscores. -/
  letters : ∀ n, linear n → ∀ c ∈ n.toList, isNameChar c = true
  /-- A text that looks composed is not known. -/
  foreign : ∀ key u, vocabulary key = some u →
    '*' ∉ key.toList ∧ '^' ∉ key.toList ∧ ('/' ∈ key.toList → ' ' ∈ key.toList)

namespace Fluent

variable {vocabulary : Vocabulary} {base : String → UnitOfMeasure} {linear : String → Prop}
  {source : String} {group : List (String × ℤ)} {p : String × ℤ}

/-- The powers whose text can be read. -/
def Readable (linear : String → Prop) (p : String × ℤ) : Prop :=
  linear p.1 ∧ 0 < p.2 ∧ p.2 ≤ 1000

theorem isPlainGroup (h : Fluent vocabulary base linear) (hgroup : ∀ p ∈ group, Readable linear p) :
    IsPlainGroup group :=
  fun p hp => by
    obtain ⟨hlinear, hpos, -⟩ := hgroup p hp
    exact ⟨hpos, h.nonempty p.1 hlinear, h.letters p.1 hlinear⟩

theorem find?_regionalChars (h : Fluent vocabulary base linear) {n : String} (hn : linear n) :
    vocabulary.find? (regionalChars n.toList) = some (base n) := by
  have hnormal : normalChars n.toList = regionalChars n.toList :=
    normalChars_of_plain fun c hc => isPlainChar_of_isNameChar (h.letters n hn c hc)
  unfold find?
  rw [← hnormal]
  exact h.known n hn

/-- The regional spelling of a name is made of letters and underscores, too. -/
theorem isNameChar_of_mem (h : Fluent vocabulary base linear) {n : String} (hn : linear n) {c : Char}
    (hc : c ∈ regionalChars n.toList) : isNameChar c = true := by
  rcases mem_regionalChars hc with hc | hc
  · exact hc
  · exact h.letters n hn c hc

theorem find?_eq_none (h : Fluent vocabulary base linear) {text : List Char}
    (htext : '*' ∈ text ∨ '^' ∈ text ∨ '/' ∈ text ∧ ' ' ∉ text) : vocabulary.find? text = none := by
  refine Option.eq_none_iff_forall_ne_some.2 fun u hu => ?_
  obtain ⟨hstar, hcaret, hbar⟩ := h.foreign _ u hu
  rw [String.toList_ofList] at hstar hcaret hbar
  rcases htext with htext | htext | ⟨htext, hblank⟩
  · exact hstar htext
  · exact hcaret htext
  · exact hblank (hbar htext)

/-! ### Powers -/

theorem exists_power (h : Fluent vocabulary base linear) (hp : Readable linear p) :
    ∃ w, (base p.1).pow p.2 = .ok w ∧ w.Bounded 1 ∧ w.name.toFinsupp = Finsupp.single p.1 p.2 := by
  obtain ⟨hlinear, hpos, hlimit⟩ := hp
  have habs : |p.2| ≤ 1000 := by rwa [abs_of_pos hpos]
  obtain ⟨w, hw, hbounded⟩ := UnitOfMeasure.exists_pow (h.name _ hlinear) (h.offset _ hlinear)
    (h.factor _ hlinear) (h.dimension _ hlinear) hpos.ne' habs
  refine ⟨w, hw, hbounded, ?_⟩
  ext x
  rw [toFinsupp_apply, UnitOfMeasure.exponent_of_pow hw, h.name _ hlinear, exponent_atom,
    Finsupp.single_apply]
  by_cases hx : x = p.1
  · rw [if_pos hx, if_pos hx.symm, one_mul]
  · rw [if_neg hx, if_neg (Ne.symm hx), zero_mul]

/-- **A written power is read as the power.** -/
theorem readTerm_normalPower (h : Fluent vocabulary base linear) (hp : Readable linear p) :
    vocabulary.readTerm source (normalPower p) = (base p.1).pow p.2 := by
  obtain ⟨hlinear, hpos, hlimit⟩ := hp
  have hfind := h.find?_regionalChars hlinear
  by_cases hone : p.2 = 1
  · -- the name alone, which is known as a whole
    have hpower : normalPower p = regionalChars p.1.toList := by
      unfold normalPower powerText
      rw [if_pos hone]
    unfold readTerm UnitOfMeasure.pow
    rw [hpower, hfind, if_pos hone]
  · have hnone : vocabulary.find? (regionalChars p.1.toList ++ '^' :: Number.intText p.2) = none :=
      h.find?_eq_none (.inr (.inl (by simp)))
    have hlast : ∀ c ∈ (regionalChars p.1.toList).getLast?, isPowerChar c = false := fun c hc =>
      isPowerChar_of_isNameChar (h.isNameChar_of_mem hlinear (List.mem_of_getLast? hc))
    have hlimits : ¬ (p.2 = 0 ∨ termExponentLimit < p.2.natAbs) := by
      unfold termExponentLimit
      omega
    have haffine : (base p.1).isAffine = false :=
      UnitOfMeasure.isAffine_eq_false_iff.2 (h.offset _ hlinear)
    rw [normalPower_of_ne hone, readTerm_append (regionalChars_ne_nil (h.nonempty _ hlinear)) hlast
      (.intText p.2) hfind hnone, if_neg hlimits, if_neg hone, haffine, if_neg (by decide)]

theorem exists_normalPower_eq_cons (h : Fluent vocabulary base linear) (hp : Readable linear p) :
    ∃ c rest, normalPower p = c :: rest ∧ isNameChar c = true := by
  obtain ⟨c, rest, hname⟩ := List.exists_cons_of_ne_nil (regionalChars_ne_nil (h.nonempty _ hp.1))
  have hc : isNameChar c = true := h.isNameChar_of_mem hp.1 (hname ▸ List.mem_cons_self ..)
  by_cases hone : p.2 = 1
  · refine ⟨c, rest, ?_, hc⟩
    unfold normalPower powerText
    rw [if_pos hone, hname]
  · refine ⟨c, rest ++ '^' :: Number.intText p.2, ?_, hc⟩
    rw [normalPower_of_ne hone, hname, List.cons_append]

/-! ### Products -/

theorem mulTerm_normalPower (h : Fluent vocabulary base linear) (hp : Readable linear p)
    {v : UnitOfMeasure} (hv : (base p.1).pow p.2 = .ok v) (hoffset : v.offset = none)
    (product : UnitOfMeasure) :
    vocabulary.mulTerm source product (normalPower p) = product.mul v := by
  obtain ⟨c, rest, hcons, hc⟩ := h.exists_normalPower_eq_cons hp
  have hone : normalPower p ≠ ['1'] := by
    rw [hcons]
    intro heq
    exact ne_of_isNameChar hc rfl (List.cons.inj heq).1
  have hnil : (normalPower p).isEmpty = false := by rw [hcons, List.isEmpty_cons]
  have haffine : v.isAffine = false := UnitOfMeasure.isAffine_eq_false_iff.2 hoffset
  unfold mulTerm
  rw [hnil, if_neg (by decide), if_neg hone, h.readTerm_normalPower hp, hv, Except.ok_bind, haffine]
  rfl

theorem foldlM_mulTerm (h : Fluent vocabulary base linear) (source : String)
    (hgroup : ∀ p ∈ group, Readable linear p) {product : UnitOfMeasure} {k : ℕ}
    (hproduct : product.Bounded k) (hlength : k + group.length ≤ 1000) :
    ∃ w, (group.map normalPower).foldlM (vocabulary.mulTerm source) product = .ok w ∧
      w.Bounded (k + group.length) ∧
      w.name.toFinsupp = product.name.toFinsupp + groupSum group := by
  induction group generalizing product k with
  | nil => exact ⟨product, rfl, hproduct, (add_zero _).symm⟩
  | cons p group ih =>
    rw [List.forall_mem_cons] at hgroup
    rw [List.length_cons] at hlength
    obtain ⟨v, hv, hbounded, hsingle⟩ := h.exists_power hgroup.1
    obtain ⟨next, hnext, hnextBounded⟩ := hproduct.exists_mul hbounded (by omega)
    obtain ⟨w, hw, hwBounded, hsum⟩ := ih hgroup.2 hnextBounded (by omega)
    refine ⟨w, ?_, ?_, ?_⟩
    · rw [List.map_cons, List.foldlM_cons, h.mulTerm_normalPower hgroup.1 hv hbounded.offset, hnext]
      exact hw
    · rwa [List.length_cons, Nat.add_comm group.length, ← Nat.add_assoc]
    · rw [hsum, toFinsupp_of_mul (UnitOfMeasure.mul_eq_ok_iff.1 hnext).1, hsingle, groupSum_cons,
        add_assoc]

/-- **A written group is read as the product of its powers.** -/
theorem readProduct_groupText (h : Fluent vocabulary base linear) (source : String)
    (hgroup : ∀ p ∈ group, Readable linear p) (hlength : group.length ≤ 1000) :
    ∃ w, vocabulary.readProduct source (regionalChars (groupText group)) = .ok w ∧
      w.Bounded group.length ∧ w.name.toFinsupp = groupSum group := by
  rw [regionalChars_groupText]
  by_cases hnil : group = []
  · subst hnil
    exact ⟨.one, rfl, .one, toFinsupp_one⟩
  · -- the powers have no star of their own, so the text is cut between them
    have hstar : ∀ part ∈ group.map normalPower, '*' ∉ part := by
      intro part hpart hmem
      obtain ⟨p, hp, rfl⟩ := List.mem_map.1 hpart
      exact ((h.isPlainGroup hgroup).mem_normalPower hp hmem).2.1 rfl
    have hparts : group.map normalPower ≠ [] := by simpa using hnil
    have hsplit : (productText (group.map normalPower)).splitOn '*' = group.map normalPower :=
      List.splitOn_intercalate '*' hstar hparts
    obtain ⟨w, hw, hbounded, hsum⟩ :=
      h.foldlM_mulTerm source hgroup .one (by omega)
    rw [if_neg hnil]
    unfold readProduct
    rw [hsplit]
    refine ⟨w, hw, by rwa [Nat.zero_add] at hbounded, ?_⟩
    rw [hsum]
    show Monomial.one.toFinsupp + groupSum group = groupSum group
    rw [toFinsupp_one, zero_add]

/-! ### Names -/

variable {m : UnitName}

/-- What is needed of a name: the exponents are bounded, and there are not too many. -/
structure ReadableName (linear : String → Prop) (m : UnitName) : Prop where
  linear : ∀ n, m.exponent n ≠ 0 → linear n
  exponent : ∀ n, |m.exponent n| ≤ 1000
  length : m.factors.length ≤ 1000

theorem ReadableName.above (hm : ReadableName linear m) : ∀ p ∈ m.above, Readable linear p := by
  intro p hp
  obtain ⟨-, hexponent⟩ := mem_above hp
  obtain ⟨hpos, hlinear⟩ := forall_mem_above hm.linear p hp
  refine ⟨hlinear, hpos, ?_⟩
  rw [← hexponent]
  exact (le_abs_self _).trans (hm.exponent p.1)

theorem ReadableName.below (hm : ReadableName linear m) : ∀ p ∈ m.below, Readable linear p := by
  intro p hp
  obtain ⟨-, hexponent⟩ := mem_below hp
  obtain ⟨hpos, hlinear⟩ := forall_mem_below hm.linear p hp
  refine ⟨hlinear, hpos, ?_⟩
  rw [← neg_neg p.2, ← hexponent]
  exact (neg_le_abs _).trans (hm.exponent p.1)

theorem ReadableName.hasLeast (hm : ReadableName linear m) : m.hasLeast = false :=
  hasLeast_eq_false_of_abs_le hm.exponent

theorem hasPlainNames (h : Fluent vocabulary base linear) (hm : ReadableName linear m) :
    HasPlainNames m :=
  fun n hn => ⟨h.nonempty n (hm.linear n hn), h.letters n (hm.linear n hn)⟩

theorem readQuotient_text (h : Fluent vocabulary base linear) (source : String)
    (hm : ReadableName linear m) :
    ∃ w, vocabulary.readQuotient source (regionalChars (Monomial.text ['1'] m)) = .ok w ∧
      w.name = m := by
  have hlength := length_above_add_length_below m
  have hlimit := hm.length
  obtain ⟨u, hu, huBounded, husum⟩ := h.readProduct_groupText source hm.above (by omega)
  obtain ⟨v, hv, hvBounded, hvsum⟩ := h.readProduct_groupText source hm.below (by omega)
  have hbar : '/' ∉ regionalChars (groupText m.above) := (h.hasPlainNames hm).above.bar_notMem
  rw [readQuotient_eq, text_eq hm.hasLeast]
  by_cases hbelow : m.below = []
  · -- without a bar the divisor is the empty product
    rw [if_pos hbelow, cutAt_of_notMem hbar]
    obtain ⟨w, hw, -⟩ := huBounded.exists_div .one (by omega)
    refine ⟨w, Except.bind_eq_ok_iff.2 ⟨u, hu, hw⟩, toFinsupp_injective ?_⟩
    rw [toFinsupp_of_div (UnitOfMeasure.div_eq_ok_iff.1 hw).1, husum, toFinsupp_eq_sub m, hbelow]
    rfl
  · rw [if_neg hbelow, regionalChars_append_cons rfl, cutAt_of_first hbar]
    obtain ⟨w, hw, -⟩ := huBounded.exists_div hvBounded (by omega)
    refine ⟨w, Except.bind_eq_ok_iff.2 ⟨u, hu, Except.bind_eq_ok_iff.2 ⟨v, hv, hw⟩⟩,
      toFinsupp_injective ?_⟩
    rw [toFinsupp_of_div (UnitOfMeasure.div_eq_ok_iff.1 hw).1, husum, hvsum, toFinsupp_eq_sub m]

/-- A text with a star or a single bar is a quotient, as it is not known as a whole. -/
theorem readNormal_eq_readQuotient (h : Fluent vocabulary base linear) {text : List Char}
    (hblank : ' ' ∉ text) (hmark : '*' ∈ text ∨ '/' ∈ text) (hcount : text.count '/' ≤ 1) :
    vocabulary.readNormal source text = vocabulary.readQuotient source text :=
  readNormal_eq_readQuotient_of_find?
    (h.find?_eq_none (hmark.imp_right fun hbar => .inr ⟨hbar, hblank⟩)) hmark hcount

/-- A name that is written without a star or a bar is a single power. -/
theorem readNormal_text_of_above (h : Fluent vocabulary base linear) (source : String)
    (hm : ReadableName linear m) (hbelow : m.below = []) (habove : m.above = [p]) :
    ∃ w, vocabulary.readNormal source (normalPower p) = .ok w ∧ w.name = m := by
  have hp : Readable linear p := hm.above p (habove ▸ List.mem_singleton_self p)
  have hplain : IsPlainGroup [p] := h.isPlainGroup (List.forall_mem_singleton.2 hp)
  obtain ⟨w, hw, -, hsingle⟩ := h.exists_power hp
  obtain ⟨c, rest, hcons, -⟩ := h.exists_normalPower_eq_cons hp
  refine ⟨w, ?_, toFinsupp_injective ?_⟩
  · rw [readNormal_eq_readTerm (by simp [hcons])
      (fun hc => (hplain.mem_normalPower (List.mem_singleton_self p) hc).2.1 rfl)
      fun hc => (hplain.mem_normalPower (List.mem_singleton_self p) hc).2.2 rfl,
      h.readTerm_normalPower hp, hw]
  · rw [hsingle, toFinsupp_eq_sub m, habove, hbelow, groupSum_cons]
    simp [groupSum]

/-- **A written name is read as a unit of that name.** -/
theorem readNormal_text (h : Fluent vocabulary base linear) (source : String)
    (hm : ReadableName linear m) (hone : m.isOne = false) :
    ∃ w, vocabulary.readNormal source (regionalChars (Monomial.text ['1'] m)) = .ok w ∧
      w.name = m := by
  have hplain := h.hasPlainNames hm
  have hblank : ' ' ∉ regionalChars (Monomial.text ['1'] m) := by
    intro hc
    rcases mem_regionalChars hc with hc | hc
    · cases hc
    · cases hplain.isPlainChar_of_mem_text hm.hasLeast hc
  have hcountAbove := List.count_eq_zero.2 hplain.above.bar_notMem
  have hcountBelow := List.count_eq_zero.2 hplain.below.bar_notMem
  have htext := text_eq hm.hasLeast
  cases hb : m.below with
  | cons q below =>
    -- a bar, and it is the only one
    rw [if_neg (by simp [hb])] at htext
    have hnormal : regionalChars (Monomial.text ['1'] m) =
        regionalChars (groupText m.above) ++ '/' :: regionalChars (groupText m.below) := by
      rw [htext, regionalChars_append_cons rfl]
    rw [h.readNormal_eq_readQuotient hblank (.inr (by simp [hnormal])) (by
      rw [hnormal, List.count_append, List.count_cons_self, hcountAbove, hcountBelow])]
    exact h.readQuotient_text source hm
  | nil =>
    rw [if_pos hb] at htext
    match ha : m.above with
    | [] =>
      have hzero : m = Monomial.one := toFinsupp_injective (by
        rw [toFinsupp_eq_sub, ha, hb, sub_self, toFinsupp_one])
      rw [hzero] at hone
      cases hone
    | [p] =>
      have hnormal : regionalChars (Monomial.text ['1'] m) = normalPower p := by
        rw [htext, regionalChars_groupText, ha, if_neg (List.cons_ne_nil _ _), List.map_singleton,
          productText_singleton]
      rw [hnormal]
      exact h.readNormal_text_of_above source hm hb ha
    | p :: q :: above =>
      have hstar : '*' ∈ regionalChars (Monomial.text ['1'] m) := by
        rw [htext, regionalChars_groupText, ha, if_neg (List.cons_ne_nil _ _), List.map_cons,
          List.map_cons, productText_cons_cons]
        simp
      rw [h.readNormal_eq_readQuotient hblank (.inl hstar) (by
        rw [htext, hcountAbove]
        exact Nat.zero_le _)]
      exact h.readQuotient_text source hm

end Fluent

end ExactUnits.Vocabulary
