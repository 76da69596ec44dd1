import Mathlib.Data.List.TakeWhile
import ExactUnits.Proofs.Vocabulary.Reading

/-!
# Reading with more words

What a text means depends on what is not known as well: a text that is not known as a whole is
cut into terms, and a term that is not known is cut into a base and an exponent.  A new key may
stand in the way of either cut, but only if it has a star, a bar or a digit itself.  With other
new keys, every text that could be read keeps its meaning.

## Main definitions

* `IsAtomic` — texts without stars, bars and digits, which no cut changes.
* `Vocabulary.Extends` — vocabularies that know more, with new keys that are atomic.

## Main results

* `Vocabulary.eq_of_splitExponent?` — an atomic term is its own base.
* `Vocabulary.Extends.readUnit` — **a text that can be read keeps its meaning.**
-/

namespace ExactUnits

open Text

/-- A text without a star, a bar or a digit. -/
def IsAtomic (text : List Char) : Prop := ∀ c ∈ text, c ≠ '*' ∧ c ≠ '/' ∧ c.isDigit = false

instance (text : List Char) : Decidable (IsAtomic text) :=
  List.decidableBAll (fun c => c ≠ '*' ∧ c ≠ '/' ∧ c.isDigit = false) text

theorem not_isAtomic_of_mark {text : List Char} (h : '*' ∈ text ∨ '/' ∈ text) :
    ¬ IsAtomic text := by
  intro hatomic
  rcases h with h | h
  · exact (hatomic '*' h).1 rfl
  · exact (hatomic '/' h).2.1 rfl

namespace Vocabulary

theorem trailingDigits_eq_nil {text : List Char} (h : IsAtomic text) : trailingDigits text = [] := by
  have hdigits : text.reverse.takeWhile Char.isDigit = [] := by
    refine List.takeWhile_eq_nil_iff.2 fun hlength => ?_
    have hmem : text.reverse.get ⟨0, hlength⟩ ∈ text := List.mem_reverse.1 (List.get_mem _ _)
    rw [(h _ hmem).2.2]
    decide
  unfold trailingDigits
  rw [hdigits, List.reverse_nil]

/-- An atomic term is its own base. -/
theorem eq_of_splitExponent? {term base : List Char} {n : Int} (h : IsAtomic term)
    (hsplit : splitExponent? term = some (base, n)) : base = term :=
  (splitExponent?_eq_some hsplit).2.2 (trailingDigits_eq_nil h)

/-- The larger vocabulary agrees with the smaller one, and its new keys are atomic. -/
structure Extends (larger smaller : Vocabulary) : Prop where
  /-- What is known stays known. -/
  known : ∀ key u, smaller key = some u → larger key = some u
  /-- What is new is atomic. -/
  fresh : ∀ key u, larger key = some u → smaller key = some u ∨ IsAtomic key.toList

namespace Extends

variable {larger smaller : Vocabulary} {source : String} {term text : List Char}
  {u product : UnitOfMeasure}

/-! ### Looking up -/

theorem find?_eq_some (h : Extends larger smaller) (hfind : smaller.find? text = some u) :
    larger.find? text = some u :=
  h.known _ u hfind

/-- A text that is not atomic stays unknown. -/
theorem find?_eq_none (h : Extends larger smaller) (hfind : smaller.find? text = none)
    (hatomic : ¬ IsAtomic text) : larger.find? text = none := by
  refine Option.eq_none_iff_forall_ne_some.2 fun v hv => ?_
  rcases h.fresh _ v hv with hknown | hfresh
  · rw [find?, hknown] at hfind
    cases hfind
  · rw [String.toList_ofList] at hfresh
    exact hatomic hfresh

/-! ### Terms and products -/

theorem readTerm (h : Extends larger smaller) (hread : smaller.readTerm source term = .ok u) :
    larger.readTerm source term = .ok u := by
  rcases readTerm_eq_ok_iff.1 hread with hu | ⟨hnone, base, n, v, hsplit, hv, hpower⟩
  · exact readTerm_of_find? (h.find?_eq_some hu)
  · -- an atomic term would be its own base, and the base is known
    have hatomic : ¬ IsAtomic term := by
      intro hatomic
      rw [eq_of_splitExponent? hatomic hsplit, hnone] at hv
      cases hv
    have hnone' := h.find?_eq_none hnone hatomic
    exact readTerm_eq_ok_iff.2 (.inr ⟨hnone', base, n, v, hsplit, h.find?_eq_some hv, hpower⟩)

theorem mulTerm (h : Extends larger smaller)
    (hread : smaller.mulTerm source product term = .ok u) :
    larger.mulTerm source product term = .ok u := by
  rw [mulTerm_eq_ok_iff] at hread ⊢
  obtain ⟨hnil, hone | ⟨hone, v, hv, hmul⟩⟩ := hread
  · exact ⟨hnil, .inl hone⟩
  · exact ⟨hnil, .inr ⟨hone, v, h.readTerm hv, hmul⟩⟩

theorem readProduct (h : Extends larger smaller)
    (hread : smaller.readProduct source text = .ok u) : larger.readProduct source text = .ok u :=
  Except.foldlM_mono (fun _ _ _ => h.mulTerm) hread

/-! ### Expressions -/

theorem readQuotient (h : Extends larger smaller)
    (hread : smaller.readQuotient source text = .ok u) :
    larger.readQuotient source text = .ok u := by
  rw [readQuotient_eq, Except.bind_eq_ok_iff] at hread ⊢
  obtain ⟨numerator, hnumerator, hread⟩ := hread
  obtain ⟨denominator, hdenominator, hread⟩ := Except.bind_eq_ok_iff.1 hread
  refine ⟨numerator, h.readProduct hnumerator, Except.bind_eq_ok_iff.2 ⟨denominator, ?_, hread⟩⟩
  cases hbar : (cutAt (· == '/') text).2 with
  | none =>
    rw [hbar] at hdenominator
    exact hdenominator
  | some below =>
    rw [hbar] at hdenominator
    exact h.readProduct hdenominator

theorem readNormal (h : Extends larger smaller)
    (hread : smaller.readNormal source text = .ok u) : larger.readNormal source text = .ok u := by
  have hnil : text ≠ [] := by
    rintro rfl
    cases hread
  cases hfind : smaller.find? text with
  | some v =>
    rw [readNormal_of_find? hnil hfind] at hread
    obtain rfl := Except.ok.inj hread
    exact readNormal_of_find? hnil (h.find?_eq_some hfind)
  | none =>
    by_cases hmark : '*' ∈ text ∨ '/' ∈ text
    · -- no new key is known as a whole in place of an expression
      have hfind' := h.find?_eq_none hfind (not_isAtomic_of_mark hmark)
      have hcount : text.count '/' ≤ 1 := by
        refine Nat.le_of_not_lt fun hbars => ?_
        rw [readNormal_of_bars hfind hbars] at hread
        cases hread
      rw [readNormal_eq_readQuotient_of_find? hfind hmark hcount] at hread
      rw [readNormal_eq_readQuotient_of_find? hfind' hmark hcount]
      exact h.readQuotient hread
    · rw [not_or] at hmark
      rw [readNormal_eq_readTerm hnil hmark.1 hmark.2] at hread ⊢
      exact h.readTerm hread

/-- **A text that can be read keeps its meaning.** -/
theorem readUnit (h : Extends larger smaller) {text : String}
    (hread : smaller.readUnit text = .ok u) : larger.readUnit text = .ok u := by
  rw [Vocabulary.readUnit, readChars] at hread ⊢
  exact h.readNormal hread

end Extends

end Vocabulary

end ExactUnits
