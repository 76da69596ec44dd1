import Mathlib
import ExactUnits.Proofs.Number.Grammar

/-!
# Reading written numbers

A number is written with digits, a minus sign and a bar only, and what is written is
read back as the number.

## Main results

* `Number.spells_intText` — the literal that an integer is written as.
* `Number.readChars_text` — **a written number is read as itself.**
-/

namespace ExactUnits

open Text

namespace Number

/-! ### Digits -/

theorem isDigit_of_mem_natText {n : Nat} {c : Char} (h : c ∈ natText n) : c.isDigit = true :=
  Nat.isDigit_of_mem_toDigits (by decide) (by decide) h

theorem natText_ne_nil (n : Nat) : natText n ≠ [] := Nat.toDigits_ne_nil

@[simp] theorem digitsValue_natText (n : Nat) : Literal.digitsValue (natText n) = n :=
  Nat.ofDigitChars_toDigits (by decide) (by decide)

/-! ### Integers -/

theorem intText_of_nonneg {n : Int} (h : 0 ≤ n) : intText n = natText n.natAbs :=
  if_neg (Int.not_lt.2 h)

theorem mem_intText {n : Int} {c : Char} (h : c ∈ intText n) : c = '-' ∨ c.isDigit = true := by
  unfold intText at h
  split at h
  · exact (List.mem_cons.1 h).imp_right isDigit_of_mem_natText
  · exact .inr (isDigit_of_mem_natText h)

/-- An integer is written without the characters that are neither digits nor a minus
sign. -/
theorem eq_false_of_mem_intText {n : Int} {p : Char → Bool} (hminus : p '-' = false)
    (hdigit : ∀ c, c.isDigit = true → p c = false) : ∀ c ∈ intText n, p c = false := by
  intro c hc
  rcases mem_intText hc with rfl | hc
  · exact hminus
  · exact hdigit c hc

theorem spells_intText (n : Int) :
    Literal.Spells (intText n) ⟨decide (n < 0), natText n.natAbs, [], 0⟩ := by
  have hnil : natText n.natAbs ++ [] ≠ [] := by simpa using natText_ne_nil n.natAbs
  have hdigits : ∀ c ∈ natText n.natAbs ++ [], c.isDigit = true := by
    intro c hc
    exact isDigit_of_mem_natText (by simpa using hc)
  unfold intText
  split
  · next h =>
    have hspells := Literal.Spells.intro .minus .absent .absent hnil hdigits
    simpa [h] using hspells
  · next h =>
    have hspells := Literal.Spells.intro .absent .absent .absent hnil hdigits
    simpa [h] using hspells

theorem signed_natAbs (n : Int) : Literal.signed (decide (n < 0)) n.natAbs = n := by
  unfold Literal.signed
  by_cases h : n < 0
  · rw [if_pos (decide_eq_true h)]
    omega
  · rw [if_neg (by simpa using h)]
    omega

theorem readPart_intText (source : List Char) (n : Int) :
    readPart source (intText n) = .ok (n : Rat) := by
  have hvalue : Literal.value ⟨decide (n < 0), natText n.natAbs, [], 0⟩ = (n : Rat) := by
    simp [Literal.value, Literal.significand, signed_natAbs, scaled]
  unfold readPart
  rw [(spells_intText n).ofText?_eq]
  show Literal.evaluate _ = _
  rw [Literal.evaluate_of_exponent_eq_zero rfl, hvalue]

/-! ### Numbers -/

theorem mem_text {x : Number} {c : Char} (h : c ∈ text x) :
    c = '-' ∨ c = '/' ∨ c.isDigit = true := by
  unfold text at h
  split at h
  · exact (mem_intText h).imp_right .inr
  · rcases List.mem_append.1 h with h | h
    · exact (mem_intText h).imp_right .inr
    · rcases List.mem_cons.1 h with h | h
      · exact .inr (.inl h)
      · exact .inr (.inr (isDigit_of_mem_natText h))

theorem isBlank_of_mem_text {x : Number} {c : Char} (h : c ∈ text x) : isBlank c = false := by
  rcases mem_text h with rfl | rfl | h
  · decide
  · decide
  · exact isBlank_of_isDigit h

/-- **A written number is read as itself.** -/
theorem readChars_text (x : Number) : readChars (text x) = .ok x := by
  have hbar : ∀ n : Int, '/' ∉ intText n := by
    intro n hmem
    rcases mem_intText hmem with hminus | hdigit
    · exact absurd hminus (by decide)
    · exact absurd hdigit (by decide)
  have htrimmed : ∀ n : Int, Trimmed (intText n) (intText n) := by
    intro n
    refine trim_eq_iff.1 (trim_eq_self_of_forall ?_)
    exact eq_false_of_mem_intText (by decide) fun c => isBlank_of_isDigit
  unfold readChars
  rw [trim_eq_self_of_forall fun c => isBlank_of_mem_text]
  unfold text
  -- an integer is written without a bar, and all else as numerator and denominator
  by_cases hx : x.isInteger = true
  · have hden : x.den = 1 := by simpa [isInteger] using hx
    rw [if_pos hx, readTrimmed_of_notMem (hbar x.num), readPart_intText,
      Rat.coe_int_num_of_den_eq_one hden]
  · have hden : natText x.den = intText x.den := by
      rw [intText_of_nonneg (Int.natCast_nonneg x.den), Int.natAbs_natCast]
    have hne : ((x.den : Int) : Rat) ≠ 0 := by exact_mod_cast x.den_ne_zero
    rw [if_neg hx, hden,
      readTrimmed_of_bar (hbar x.num) rfl (htrimmed x.num) (htrimmed x.den), readPart_intText,
      Except.ok_bind, readPart_intText, Except.ok_bind, divide_of_ne hne, Except.mapError_ok,
      Int.cast_natCast, Rat.num_div_den]

end Number

end ExactUnits
