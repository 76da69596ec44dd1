import ExactUnits.Vocabulary
import ExactUnits.Proofs.Outcome

/-!
# What reading a unit keeps

A normal text that is known as a whole stands for its unit; else it is read as a term if it
has no mark, and as a quotient if it has one.  A unit that is read is a known one, or it is
put together from known units by powers, products and a quotient, and no unit with an offset
takes part in any of these.  So a property of the known units passes to every unit that is
read, if the algebra of units keeps what it says of units without an offset.

## Main definitions

* `ReadingInvariant P Q` — `P` can be said of all units and `Q` of those that take part
  in products.

## Main results

* `Vocabulary.splitExponent?_eq_some` — how a term is cut into base and exponent.
* `Vocabulary.readTerm_eq_ok_iff`, `Vocabulary.mulTerm_eq_ok_iff` — what terms can be read.
* `Vocabulary.readNormal_of_find?`, `Vocabulary.readNormal_eq_readTerm`,
  `Vocabulary.readNormal_of_bars`, `Vocabulary.readNormal_eq_readQuotient_of_find?` — the ways
  in which a normal text is read.
* `ReadingInvariant.readUnit` — **a reading invariant of the known units holds of every
  unit that is read.**
-/

namespace ExactUnits

open Text

namespace Vocabulary

variable {vocabulary : Vocabulary} {source : String} {term text : List Char}
  {u w product : UnitOfMeasure}

/-! ### How terms are read -/

theorem find?_toList (vocabulary : Vocabulary) (text : String) :
    vocabulary.find? text.toList = vocabulary text := by
  unfold find?
  rw [String.ofList_toList]

theorem readTerm_of_find? (h : vocabulary.find? text = some u) :
    vocabulary.readTerm source text = .ok u := by
  unfold readTerm
  rw [h]

/-- The exponent of a term is neither zero nor beyond the limit, and a term that ends in a digit
is the only one that is cut. -/
theorem splitExponent?_eq_some {base : List Char} {n : Int}
    (h : splitExponent? term = some (base, n)) :
    n ≠ 0 ∧ n.natAbs ≤ termExponentLimit ∧ (trailingDigits term = [] → base = term) := by
  unfold splitExponent? at h
  generalize trailingDigits term = digits at h ⊢
  cases digits with
  | nil =>
    obtain ⟨rfl, rfl⟩ := Prod.mk.inj (Option.some.inj h)
    exact ⟨by decide, by decide, fun _ => rfl⟩
  | cons d digits =>
    -- what the sign and the caret leave does not matter here
    generalize splitTrailingSign (withoutTrailingDigits term) = cut at h
    obtain ⟨head, negative⟩ := cut
    simp only [List.isEmpty_cons, Bool.false_eq_true, if_false] at h
    split at h
    · cases h
    · next hrefused =>
      obtain ⟨-, rfl⟩ := Prod.mk.inj (Option.some.inj h)
      rw [not_or, not_or, Nat.not_lt] at hrefused
      exact ⟨hrefused.2.1, hrefused.2.2, fun hnil => absurd hnil (List.cons_ne_nil _ _)⟩

/-- A term is known, or it is cut into a known base and an exponent. -/
theorem readTerm_eq_ok_iff :
    vocabulary.readTerm source term = .ok u ↔
      vocabulary.find? term = some u ∨
        vocabulary.find? term = none ∧ ∃ base n v, splitExponent? term = some (base, n) ∧
          vocabulary.find? base = some v ∧
            (n = 1 ∧ v = u ∨ n ≠ 1 ∧ v.isAffine = false ∧ v.pow n = .ok u) := by
  unfold readTerm
  cases vocabulary.find? term with
  | some v => simp
  | none =>
    cases splitExponent? term with
    | none => simp
    | some cut =>
      obtain ⟨base, n⟩ := cut
      cases hbase : vocabulary.find? base with
      | none => simp [hbase]
      | some v =>
        by_cases hn : n = 1
        · simp [hbase, hn, and_assoc]
        · cases haffine : v.isAffine <;> simp [hbase, hn, haffine, and_assoc]

/-- A term leaves a product as it is, or it multiplies it by a unit without an offset. -/
theorem mulTerm_eq_ok_iff :
    vocabulary.mulTerm source product term = .ok w ↔
      term ≠ [] ∧ (term = ['1'] ∧ product = w ∨
        term ≠ ['1'] ∧ ∃ u, vocabulary.readTerm source term = .ok u ∧ u.isAffine = false ∧
          product.mul u = .ok w) := by
  unfold mulTerm
  by_cases hnil : term = []
  · simp [hnil]
  · by_cases hone : term = ['1']
    · simp [hone]
    · simp only [List.isEmpty_iff, hnil, hone, if_false, ne_eq, not_false_eq_true, true_and,
        false_and, false_or, Except.bind_eq_ok_iff]
      refine exists_congr fun u => and_congr_right fun _ => ?_
      cases u.isAffine <;> simp

/-! ### How normal texts are read -/

/-- A text without a bar is a quotient over one. -/
theorem readQuotient_eq (vocabulary : Vocabulary) (source : String) (text : List Char) :
    vocabulary.readQuotient source text =
      vocabulary.readProduct source (cutAt (· == '/') text).1 >>= fun numerator =>
        (cutAt (· == '/') text).2.elim (.ok .one) (vocabulary.readProduct source) >>=
          fun denominator => numerator.div denominator := by
  rw [readQuotient]
  generalize cutAt (· == '/') text = cut
  obtain ⟨above, bar⟩ := cut
  cases bar <;> rfl

/-- A text that is known as a whole is not analysed. -/
theorem readNormal_of_find? (hnil : text ≠ []) (h : vocabulary.find? text = some u) :
    vocabulary.readNormal source text = .ok u := by
  have hempty : text.isEmpty = false := by simpa using hnil
  unfold readNormal
  rw [hempty, if_neg (by decide), h]

theorem readNormal_eq_readTerm (hnil : text ≠ []) (hstar : '*' ∉ text) (hbar : '/' ∉ text) :
    vocabulary.readNormal source text = vocabulary.readTerm source text := by
  have hempty : text.isEmpty = false := by simpa using hnil
  have hcount : text.count '/' = 0 := List.count_eq_zero.2 hbar
  unfold readNormal
  rw [hempty, if_neg (by decide), hcount, if_neg (by decide), if_neg (not_or.2 ⟨hstar, hbar⟩)]
  unfold readTerm
  split
  · next u hu => rfl
  · rfl

theorem readNormal_of_bars (h : vocabulary.find? text = none) (hcount : 1 < text.count '/') :
    vocabulary.readNormal source text = .error (.divisions source) := by
  have hempty : text.isEmpty = false := by
    cases text with
    | nil => cases hcount
    | cons c text => rfl
  unfold readNormal
  rw [hempty, if_neg (by decide), h]
  show (if 1 < text.count '/' then _ else _) = _
  rw [if_pos hcount]

/-- A text with a star or a single bar that is not known as a whole is a quotient. -/
theorem readNormal_eq_readQuotient_of_find? (h : vocabulary.find? text = none)
    (hmark : '*' ∈ text ∨ '/' ∈ text) (hcount : text.count '/' ≤ 1) :
    vocabulary.readNormal source text = vocabulary.readQuotient source text := by
  have hempty : text.isEmpty = false := by
    cases text with
    | nil => simp at hmark
    | cons c text => rfl
  unfold readNormal
  rw [hempty, if_neg (by decide), h]
  show (if 1 < text.count '/' then _ else _) = _
  rw [if_neg (by omega), if_pos hmark]

end Vocabulary

/-! ### Invariants of reading -/

/-- A property `P` of units that follows from `Q`, which the units without an offset
share and which the algebra of units keeps. -/
structure ReadingInvariant (P Q : UnitOfMeasure → Prop) : Prop where
  /-- A unit without an offset can take part in products. -/
  linear : ∀ u, P u → u.isAffine = false → Q u
  /-- What products give is as good as any unit. -/
  composite : ∀ u, Q u → P u
  /-- The empty product. -/
  one : Q .one
  /-- Products keep the property. -/
  mul : ∀ u v w, Q u → Q v → u.mul v = .ok w → Q w
  /-- Quotients keep the property. -/
  div : ∀ u v w, Q u → Q v → u.div v = .ok w → Q w
  /-- Powers keep the property. -/
  pow : ∀ u w n, Q u → u.pow n = .ok w → Q w

namespace ReadingInvariant

variable {P Q : UnitOfMeasure → Prop} {vocabulary : Vocabulary} {source : String} {text : List Char}

theorem readTerm (hinv : ReadingInvariant P Q) (hknown : ∀ key u, vocabulary key = some u → P u)
    {u : UnitOfMeasure} (h : vocabulary.readTerm source text = .ok u) : P u := by
  rcases Vocabulary.readTerm_eq_ok_iff.1 h with
    hu | ⟨-, base, n, v, -, hv, ⟨-, rfl⟩ | ⟨-, haffine, hpow⟩⟩
  · exact hknown _ _ hu
  · exact hknown _ _ hv
  · have hlinear : Q v := hinv.linear v (hknown _ _ hv) haffine
    exact hinv.composite u (hinv.pow v u n hlinear hpow)

theorem mulTerm (hinv : ReadingInvariant P Q) (hknown : ∀ key u, vocabulary key = some u → P u)
    {product u : UnitOfMeasure} (hproduct : Q product)
    (h : vocabulary.mulTerm source product text = .ok u) : Q u := by
  rcases Vocabulary.mulTerm_eq_ok_iff.1 h with ⟨-, ⟨-, rfl⟩ | ⟨-, v, hv, haffine, hmul⟩⟩
  · exact hproduct
  · have hlinear : Q v := hinv.linear v (hinv.readTerm hknown hv) haffine
    exact hinv.mul product v u hproduct hlinear hmul

theorem readProduct (hinv : ReadingInvariant P Q) (hknown : ∀ key u, vocabulary key = some u → P u)
    {u : UnitOfMeasure} (h : vocabulary.readProduct source text = .ok u) : Q u :=
  Except.foldlM_induction Q hinv.one (fun _ _ _ _ hproduct => hinv.mulTerm hknown hproduct) h

theorem readQuotient (hinv : ReadingInvariant P Q) (hknown : ∀ key u, vocabulary key = some u → P u)
    {u : UnitOfMeasure} (h : vocabulary.readQuotient source text = .ok u) : Q u := by
  rw [Vocabulary.readQuotient_eq, Except.bind_eq_ok_iff] at h
  obtain ⟨numerator, hnumerator, h⟩ := h
  obtain ⟨denominator, hdenominator, h⟩ := Except.bind_eq_ok_iff.1 h
  have hbelow : Q denominator := by
    cases hbar : (cutAt (· == '/') text).2 with
    | none =>
      rw [hbar] at hdenominator
      obtain rfl := Except.ok.inj hdenominator
      exact hinv.one
    | some below =>
      rw [hbar] at hdenominator
      exact hinv.readProduct hknown hdenominator
  exact hinv.div numerator denominator u (hinv.readProduct hknown hnumerator) hbelow h

theorem readNormal (hinv : ReadingInvariant P Q) (hknown : ∀ key u, vocabulary key = some u → P u)
    {u : UnitOfMeasure} (h : vocabulary.readNormal source text = .ok u) : P u := by
  rw [Vocabulary.readNormal] at h
  split at h
  · cases h
  · split at h
    · next v hv =>
      obtain rfl := Except.ok.inj h
      exact hknown _ _ hv
    · split at h
      · cases h
      · split at h
        · exact hinv.composite u (hinv.readQuotient hknown h)
        · exact hinv.readTerm hknown h

/-- **A reading invariant of the known units holds of every unit that is read.** -/
theorem readUnit (hinv : ReadingInvariant P Q) (hknown : ∀ key u, vocabulary key = some u → P u)
    {text : String} {u : UnitOfMeasure} (h : vocabulary.readUnit text = .ok u) : P u := by
  rw [Vocabulary.readUnit, Vocabulary.readChars] at h
  exact hinv.readNormal hknown h

end ReadingInvariant

end ExactUnits
