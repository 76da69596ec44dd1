import Mathlib.Data.List.Nodup
import ExactUnits.Text.Blank

/-!
# Classes of characters

Names are written with letters and underscores.  Digits, the marks of products,
quotients and powers, and names make up the plain texts: they have no blanks, and the
classes of names, digits and marks do not overlap.

## Main definitions

* `isNameChar`, `isPlainChar` — the characters of names, and those of plain texts.

## Main results

* `isBlank_of_isPlainChar` — plain texts have no blanks.
-/

namespace ExactUnits.Text

/-! ### The classes -/

/-- The ASCII letters and the underscore. -/
def isNameChar (c : Char) : Bool := c.isAlpha || c == '_'

/-- The characters of names, the digits and the marks of products, quotients and powers. -/
def isPlainChar (c : Char) : Bool := isNameChar c || c.isDigit || c == '*' || c == '/' || c == '^'

theorem toNat_of_isNameChar {c : Char} (h : isNameChar c = true) :
    (65 ≤ c.toNat ∧ c.toNat ≤ 90) ∨ (97 ≤ c.toNat ∧ c.toNat ≤ 122) ∨ c.toNat = 95 := by
  have hranges : (decide (c.val ≥ 'A'.val ∧ c.val ≤ 'Z'.val) ||
      (decide (c.val ≥ 'a'.val) && decide (c.val ≤ 'z'.val)) || c == '_') = true := h
  simp only [Bool.or_eq_true, Bool.and_eq_true, decide_eq_true_eq, beq_iff_eq, ge_iff_le,
    UInt32.le_iff_toNat_le] at hranges
  change ((65 ≤ c.toNat ∧ c.toNat ≤ 90) ∨ 97 ≤ c.toNat ∧ c.toNat ≤ 122) ∨ c = '_' at hranges
  rcases hranges with hletter | rfl
  · omega
  · decide

theorem toNat_of_isDigit {c : Char} (h : c.isDigit = true) : 48 ≤ c.toNat ∧ c.toNat ≤ 57 :=
  Char.isDigit_iff_toNat.1 h

theorem isDigit_of_isNameChar {c : Char} (h : isNameChar c = true) : c.isDigit = false := by
  have hname := toNat_of_isNameChar h
  refine Bool.eq_false_iff.2 fun hdigit => ?_
  have hrange := toNat_of_isDigit hdigit
  omega

/-- A name has none of the marks. -/
theorem ne_of_isNameChar {c d : Char} (h : isNameChar c = true) (hd : isNameChar d = false) :
    c ≠ d := by
  rintro rfl
  rw [h] at hd
  cases hd

/-- A digit is none of the other characters. -/
theorem ne_of_isDigit {c d : Char} (h : c.isDigit = true) (hd : d.isDigit = false) : c ≠ d := by
  rintro rfl
  rw [h] at hd
  cases hd

theorem isPlainChar_of_isNameChar {c : Char} (h : isNameChar c = true) : isPlainChar c = true := by
  simp [isPlainChar, h]

theorem isPlainChar_of_isDigit {c : Char} (h : c.isDigit = true) : isPlainChar c = true := by
  simp [isPlainChar, h]

theorem toNat_of_isPlainChar {c : Char} (h : isPlainChar c = true) :
    33 ≤ c.toNat ∧ c.toNat ≤ 126 := by
  simp only [isPlainChar, Bool.or_eq_true, beq_iff_eq] at h
  rcases h with (((h | h) | rfl) | rfl) | rfl
  · have hname := toNat_of_isNameChar h
    omega
  · have hdigit := toNat_of_isDigit h
    omega
  · decide
  · decide
  · decide

theorem isBlank_of_isPlainChar {c : Char} (h : isPlainChar c = true) : isBlank c = false := by
  have hrange := toNat_of_isPlainChar h
  simp only [isBlank, blankRanges, List.any_cons, List.any_nil, Bool.or_false, Bool.or_eq_false_iff,
    Bool.and_eq_false_iff, decide_eq_false_iff_not]
  omega

theorem isBlank_of_isDigit {c : Char} (h : c.isDigit = true) : isBlank c = false :=
  isBlank_of_isPlainChar (isPlainChar_of_isDigit h)

end ExactUnits.Text
