import ExactUnits.Proofs.Normal.Raised
import ExactUnits.Proofs.Number.Grammar
import ExactUnits.Proofs.Number.Written
import ExactUnits.Proofs.Vocabulary.Reading

/-!
# The grammar of exponents

The exponent of a term is an optional caret, an optional sign and one or more digits.  It is
taken off from the right: the longest run of digits, then one sign, then one caret.  If the base
ends in none of these characters, each cut falls where the grammar has the parts meet, however
the exponent is spelled, and what is left is the base.

## Main definitions

* `SpellsPower` — the texts of an exponent.

## Main results

* `splitExponent?_append` — **a base with an exponent behind it is cut between the two**, and
  refused if the exponent is zero or beyond the limit.
* `readTerm_append` — what a known base with an exponent behind it is read as.
-/

namespace ExactUnits.Vocabulary

open Text Literal

/-- The texts of an exponent, and its value: a caret, a sign and digits, in this order.  Only the
digits have to be there, as many as one likes. -/
inductive SpellsPower : List Char → ℤ → Prop
  | intro {caret sign digits : List Char} {negative : Bool} (hcaret : caret = [] ∨ caret = ['^'])
      (hsign : SpellsSign sign negative) (hnil : digits ≠ [])
      (hdigits : ∀ c ∈ digits, c.isDigit = true) :
      SpellsPower (caret ++ (sign ++ digits)) (signed negative (digitsValue digits))

variable {vocabulary : Vocabulary} {source : String} {base text : List Char} {e : ℤ}
  {u : UnitOfMeasure}

namespace SpellsPower

/-- Every exponent can be written as an integer behind a caret. -/
theorem intText (n : ℤ) : SpellsPower ('^' :: Number.intText n) n := by
  obtain ⟨sign, negative, hsign, htext, hvalue⟩ :
      ∃ sign negative, SpellsSign sign negative ∧
        Number.intText n = sign ++ Number.natText n.natAbs ∧ signed negative n.natAbs = n := by
    unfold Number.intText
    split
    · next hneg =>
      refine ⟨['-'], true, .minus, rfl, ?_⟩
      rw [signed, if_pos rfl]
      omega
    · next hneg =>
      refine ⟨[], false, .absent, rfl, ?_⟩
      rw [signed, if_neg Bool.false_ne_true]
      omega
  have h := SpellsPower.intro (.inr rfl) hsign (Number.natText_ne_nil n.natAbs)
    fun c hc => Number.isDigit_of_mem_natText hc
  rwa [Number.digitsValue_natText, hvalue, ← htext] at h

theorem isPowerChar_of_mem (h : SpellsPower text e) {c : Char} (hc : c ∈ text) :
    isPowerChar c = true := by
  cases h with
  | intro hcaret hsign hnil hdigits =>
    rw [List.mem_append, List.mem_append] at hc
    rcases hc with hc | hc | hc
    · rcases hcaret with rfl | rfl
      · cases hc
      · obtain rfl := List.mem_singleton.1 hc
        decide
    · have hmem := hsign.mem_signs hc
      simp only [List.mem_cons, List.not_mem_nil, or_false] at hmem
      rcases hmem with rfl | rfl <;> decide
    · simp [isPowerChar, hdigits c hc]

end SpellsPower

/-! ### The cuts -/

theorem trailingDigits_append {head digits : List Char}
    (hhead : ∀ c ∈ head.getLast?, c.isDigit = false) (hdigits : ∀ c ∈ digits, c.isDigit = true) :
    trailingDigits (head ++ digits) = digits ∧ withoutTrailingDigits (head ++ digits) = head := by
  have hreverse : ∀ c ∈ digits.reverse, c.isDigit = true := fun c hc =>
    hdigits c (List.mem_reverse.1 hc)
  -- behind the digits, read backwards, the rest does not start with one
  have hstop : head.reverse.takeWhile Char.isDigit = [] ∧
      head.reverse.dropWhile Char.isDigit = head.reverse := by
    rw [← List.head?_reverse] at hhead
    cases hcons : head.reverse with
    | nil => exact ⟨rfl, rfl⟩
    | cons c rest =>
      have hc : ¬ c.isDigit = true := by simpa using hhead c (by rw [hcons]; rfl)
      exact ⟨List.takeWhile_cons_of_neg hc, List.dropWhile_cons_of_neg hc⟩
  unfold trailingDigits withoutTrailingDigits
  rw [List.reverse_append, List.takeWhile_append_of_pos hreverse,
    List.dropWhile_append_of_pos hreverse, hstop.1, hstop.2, List.append_nil, List.reverse_reverse,
    List.reverse_reverse]
  exact ⟨rfl, rfl⟩

theorem splitTrailingSign_append {head sign : List Char} {negative : Bool}
    (hhead : ∀ c ∈ head.getLast?, c ∉ ['+', '-']) (hsign : SpellsSign sign negative) :
    splitTrailingSign (head ++ sign) = (head, negative) := by
  unfold splitTrailingSign
  cases hsign with
  | absent =>
    rw [List.append_nil]
    split
    · next hlast => exact absurd (hhead '-' hlast) (by decide)
    · next hlast => exact absurd (hhead '+' hlast) (by decide)
    · rfl
  | plus =>
    rw [List.getLast?_concat, List.dropLast_concat]
    rfl
  | minus =>
    rw [List.getLast?_concat, List.dropLast_concat]
    rfl

theorem dropTrailingCaret_append {head caret : List Char} (hhead : ∀ c ∈ head.getLast?, c ≠ '^')
    (hcaret : caret = [] ∨ caret = ['^']) : dropTrailingCaret (head ++ caret) = head := by
  unfold dropTrailingCaret
  rcases hcaret with rfl | rfl
  · have hnone : head.getLast? ≠ some '^' := fun hlast => hhead '^' hlast rfl
    rw [List.append_nil, if_neg hnone]
  · rw [List.getLast?_concat, if_pos rfl, List.dropLast_concat]

/-- **A base with an exponent behind it is cut between the two**, and refused if the exponent is
zero or beyond the limit. -/
theorem splitExponent?_append (hbase : base ≠ [])
    (hlast : ∀ c ∈ base.getLast?, isPowerChar c = false) (h : SpellsPower text e) :
    splitExponent? (base ++ text) =
      if e = 0 ∨ termExponentLimit < e.natAbs then none else some (base, e) := by
  cases h with
  | @intro caret sign digits negative hcaret hsign hnil hdigits =>
    simp only [isPowerChar, Bool.or_eq_false_iff, beq_eq_false_iff_ne] at hlast
    -- what each part leaves in front does not end in a character of that part
    have hcut : ∀ c ∈ (base ++ caret).getLast?, c ∉ ['+', '-'] ∧ c.isDigit = false := by
      intro c hc
      rcases hcaret with rfl | rfl
      · rw [List.append_nil] at hc
        obtain ⟨⟨⟨hdigit, -⟩, hplus⟩, hminus⟩ := hlast c hc
        exact ⟨by simp [hplus, hminus], hdigit⟩
      · obtain rfl : '^' = c := by simpa using hc
        decide
    have hhead : ∀ c ∈ (base ++ caret ++ sign).getLast?, c.isDigit = false := by
      intro c hc
      cases hsign with
      | absent =>
        rw [List.append_nil] at hc
        exact (hcut c hc).2
      | plus =>
        obtain rfl : '+' = c := by simpa using hc
        rfl
      | minus =>
        obtain rfl : '-' = c := by simpa using hc
        rfl
    obtain ⟨htrailing, hwithout⟩ := trailingDigits_append hhead hdigits
    have hsplit := splitTrailingSign_append (fun c hc => (hcut c hc).1) hsign
    have hdrop := dropTrailingCaret_append (fun c hc => (hlast c hc).1.1.2) hcaret
    have hsome : digits.isEmpty = false := by simpa using hnil
    have hfull : base.isEmpty = false := by simpa using hbase
    unfold splitExponent?
    rw [← List.append_assoc, ← List.append_assoc]
    simp only [htrailing, hwithout, hsplit, hdrop, hsome, hfull, Bool.false_eq_true, if_false,
      false_or]

/-- **What a known base with an exponent behind it is read as**, unless the whole is known. -/
theorem readTerm_append (hbase : base ≠ []) (hlast : ∀ c ∈ base.getLast?, isPowerChar c = false)
    (h : SpellsPower text e) (hfind : vocabulary.find? base = some u)
    (hforeign : vocabulary.find? (base ++ text) = none) :
    vocabulary.readTerm source (base ++ text) =
      if e = 0 ∨ termExponentLimit < e.natAbs then .error (.unknown source)
      else if e = 1 then .ok u
      else if u.isAffine then .error (.composition u.toText source)
      else u.pow e := by
  unfold readTerm
  rw [hforeign, splitExponent?_append hbase hlast h]
  by_cases hrefused : e = 0 ∨ termExponentLimit < e.natAbs
  · rw [if_pos hrefused, if_pos hrefused]
  · rw [if_neg hrefused, if_neg hrefused]
    simp only [hfind]

end ExactUnits.Vocabulary
