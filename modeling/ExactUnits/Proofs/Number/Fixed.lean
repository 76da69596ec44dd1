import Mathlib
import ExactUnits.Number.Decimal
import ExactUnits.Proofs.Number.Written

/-!
# Rounding to a fixed number of places

With `places` digits behind the point a number is written as the nearest multiple of
`10 ^ -places`.  The text depends on that multiple only, that is on the integer nearest to
`x * 10 ^ places`: its digits are padded with zeros until there is one in front of the point.
Padding does not change what the digits are worth, so the text is a literal of the multiple,
and reading it gives the multiple back.

## Main definitions

* `nearest y` — the integer nearest to `y`, of two the one that is farther from zero.
* `Number.roundedTo x places` — the multiple of the last place that is nearest to `x`.
* `Number.wholeText`, `Number.fractionText` — the digits in front of the point and behind it.
* `Number.unitsText n places` — the text of `n` units of the last place.

## Main results

* `nearest_eq_iff` — the nearest integer is the one at most a half away, a tie going away from
  zero.
* `Number.fixed_eq` — what is written is the nearest integer, in units of the last place.
* `Number.readChars_unitsText` — **a number of units is read back.**
* `Number.fixed_rounds` — **the text of a number with a fixed number of places: how it
  looks, what it stands for, and how far that is from the number.**
-/

namespace ExactUnits

open Text

/-! ### The nearest integer -/

/-- The integer nearest to a number, a half going away from zero. -/
def nearest (y : ℚ) : ℤ := if y < 0 then -⌊-y + 1 / 2⌋ else ⌊y + 1 / 2⌋

theorem floor_add_half_eq_iff {y : ℚ} (hy : 0 ≤ y) {n : ℤ} :
    ⌊y + 1 / 2⌋ = n ↔ |y - n| ≤ 1 / 2 ∧ (|y - n| = 1 / 2 → y < |(n : ℚ)|) := by
  rw [Int.floor_eq_iff]
  constructor
  · rintro ⟨hlow, hhigh⟩
    refine ⟨abs_le.2 ⟨by linarith, by linarith⟩, ?_⟩
    intro htie
    -- the upper half would round to the next integer
    rcases eq_or_eq_neg_of_abs_eq htie with htie | htie
    · linarith
    · calc y < n := by linarith
        _ ≤ |(n : ℚ)| := le_abs_self _
  · rintro ⟨hclose, hbeyond⟩
    obtain ⟨hlow, hhigh⟩ := abs_le.1 hclose
    refine ⟨by linarith, ?_⟩
    rcases lt_or_eq_of_le hhigh with hlt | htie
    · linarith
    · have hn : 0 ≤ n := by
        have hgt : (-1 : ℚ) < n := by linarith
        have hgt : -1 < n := by exact_mod_cast hgt
        omega
      have habs : |(n : ℚ)| = n := abs_of_nonneg (by exact_mod_cast hn)
      have hlt := hbeyond (by rw [htie]; norm_num)
      rw [habs] at hlt
      linarith

/-- **The nearest integer is at most a half away, and beyond the number if it is a half away.** -/
theorem nearest_eq_iff {y : ℚ} {n : ℤ} :
    nearest y = n ↔ |y - n| ≤ 1 / 2 ∧ (|y - n| = 1 / 2 → |y| < |(n : ℚ)|) := by
  unfold nearest
  split
  · next hy =>
    have hmirror := floor_add_half_eq_iff (n := -n) (neg_nonneg.2 hy.le)
    have hdist : |-y - ((-n : ℤ) : ℚ)| = |y - n| := by
      rw [Int.cast_neg, ← abs_neg]
      congr 1
      ring
    rw [hdist, Int.cast_neg, abs_neg, ← abs_of_neg hy] at hmirror
    rw [neg_eq_iff_eq_neg, ← hmirror, abs_of_neg hy]
  · next hy =>
    have hy := not_lt.1 hy
    rw [abs_of_nonneg hy]
    exact floor_add_half_eq_iff hy

theorem nearest_intCast (n : ℤ) : nearest n = n := by
  rw [nearest_eq_iff]
  norm_num

theorem natAbs_nearest (y : ℚ) : ((nearest y).natAbs : ℤ) = ⌊|y| + 1 / 2⌋ := by
  have hnonneg : 0 ≤ ⌊|y| + 1 / 2⌋ := Int.floor_nonneg.2 (by positivity)
  unfold nearest
  split
  · next hy =>
    rw [abs_of_neg hy] at hnonneg ⊢
    omega
  · next hy =>
    rw [abs_of_nonneg (not_lt.1 hy)] at hnonneg ⊢
    omega

theorem nearest_neg_iff {y : ℚ} : nearest y < 0 ↔ y < 0 ∧ (nearest y).natAbs ≠ 0 := by
  have hnonneg : 0 ≤ ⌊|y| + 1 / 2⌋ := Int.floor_nonneg.2 (by positivity)
  unfold nearest
  split
  · next hy =>
    rw [abs_of_neg hy] at hnonneg
    simp only [hy, true_and]
    omega
  · next hy =>
    rw [abs_of_nonneg (not_lt.1 hy)] at hnonneg
    simp only [hy, false_and, iff_false]
    omega

/-- Rounding a quotient of natural numbers is taking the integer part of the quotient and a
half. -/
theorem roundDiv_eq_floor (n : ℕ) {d : ℕ} (hd : 0 < d) :
    (roundDiv n d : ℤ) = ⌊(n : ℚ) / d + 1 / 2⌋ := by
  have hdvd : (n : ℚ) = d * (n / d : ℕ) + (n % d : ℕ) := by
    exact_mod_cast (Nat.div_add_mod n d).symm
  have hlt : ((n % d : ℕ) : ℚ) < d := by exact_mod_cast Nat.mod_lt n hd
  have hpos : (0 : ℚ) < d := by exact_mod_cast hd
  have hquot : (n : ℚ) / d = (n / d : ℕ) + (n % d : ℕ) / d := by
    rw [hdvd]
    field_simp
  -- the remainder decides whether the half carries over to the next integer
  symm
  rw [Int.floor_eq_iff, hquot, Int.cast_natCast, roundDiv]
  split
  · next htie =>
    have hhalf : (1 : ℚ) / 2 ≤ (n % d : ℕ) / d := by
      rw [le_div_iff₀ hpos]
      have htie : (d : ℚ) ≤ 2 * (n % d : ℕ) := by exact_mod_cast htie
      linarith
    have hone : ((n % d : ℕ) : ℚ) / d < 1 := (div_lt_one hpos).2 hlt
    rw [Nat.cast_add, Nat.cast_one]
    constructor <;> linarith
  · next htie =>
    have hhalf : ((n % d : ℕ) : ℚ) / d < 1 / 2 := by
      rw [div_lt_iff₀ hpos]
      have htie : (2 * (n % d : ℕ) : ℚ) < d := by exact_mod_cast not_le.1 htie
      linarith
    have hzero : (0 : ℚ) ≤ (n % d : ℕ) / d := by positivity
    rw [Nat.add_zero]
    constructor <;> linarith

namespace Number

/-! ### Digits in front of the point and behind it -/

/-- The digits of a number of units, with zeros in front until one of them stands in front of
the point. -/
def paddedText (units places : ℕ) : List Char := (natText units).leftpad (places + 1) '0'

theorem length_paddedText (units places : ℕ) :
    (paddedText units places).length = max (places + 1) (natText units).length :=
  List.length_leftpad ..

theorem isDigit_of_mem_paddedText {units places : ℕ} {c : Char}
    (h : c ∈ paddedText units places) : c.isDigit = true := by
  rcases List.mem_append.1 h with h | h
  · rw [List.eq_of_mem_replicate h]
    decide
  · exact isDigit_of_mem_natText h

/-- Zeros in front do not count. -/
theorem digitsValue_paddedText (units places : ℕ) :
    Literal.digitsValue (paddedText units places) = units := by
  unfold Literal.digitsValue paddedText List.leftpad
  rw [Nat.ofDigitChars_append, Nat.ofDigitChars_replicate_zero, Nat.mul_zero]
  exact digitsValue_natText units

/-- Only zero is written with a leading zero. -/
theorem eq_zero_of_head?_natText {n : ℕ} (h : (natText n).head? = some '0') : n = 0 := by
  induction n using Nat.strong_induction_on with
  | _ n ih =>
    unfold natText at h
    by_cases hn : n < 10
    · rw [Nat.toDigits_of_lt_base hn] at h
      revert h
      interval_cases n <;> decide
    · -- the first digit is that of the number without its last digit
      have hten : 10 ≤ n := Nat.not_lt.1 hn
      rw [Nat.toDigits_of_base_le (by decide) hten,
        List.head?_append_of_ne_nil _ Nat.toDigits_ne_nil] at h
      have hrest := ih (n / 10) (by omega) h
      omega

/-- The digits in front of the point. -/
def wholeText (units places : ℕ) : List Char :=
  (paddedText units places).take ((paddedText units places).length - places)

/-- The digits behind the point. -/
def fractionText (units places : ℕ) : List Char :=
  (paddedText units places).drop ((paddedText units places).length - places)

theorem wholeText_append_fractionText (units places : ℕ) :
    wholeText units places ++ fractionText units places = paddedText units places :=
  List.take_append_drop ..

theorem length_fractionText (units places : ℕ) : (fractionText units places).length = places := by
  have hlength := length_paddedText units places
  rw [fractionText, List.length_drop]
  omega

theorem withPoint_paddedText (units places : ℕ) :
    withPoint (paddedText units places) places =
      wholeText units places ++ (if places = 0 then [] else '.' :: fractionText units places) := by
  unfold withPoint wholeText fractionText
  split
  · next hplaces =>
    subst hplaces
    simp
  · rfl

theorem wholeText_ne_nil (units places : ℕ) : wholeText units places ≠ [] := by
  have hlength := length_paddedText units places
  intro hnil
  have hzero := congrArg List.length hnil
  rw [wholeText, List.length_take, List.length_nil] at hzero
  omega

/-- A number of units with more digits than places is not padded. -/
theorem paddedText_of_lt {units places : ℕ} (h : places < (natText units).length) :
    paddedText units places = natText units := by
  have hnone : places + 1 - (natText units).length = 0 := by omega
  rw [paddedText, List.leftpad, hnone]
  rfl

/-- In front of the point of any other one stands a zero of the padding. -/
theorem wholeText_of_le {units places : ℕ} (h : (natText units).length ≤ places) :
    wholeText units places = ['0'] := by
  have hlength := length_paddedText units places
  have hone : (paddedText units places).length - places = 1 := by omega
  obtain ⟨more, hmore⟩ : ∃ more, places + 1 - (natText units).length = more + 1 :=
    ⟨places - (natText units).length, by omega⟩
  rw [wholeText, hone, paddedText, List.leftpad, hmore, List.replicate_succ]
  rfl

/-- **In front of the point there is no superfluous zero.** -/
theorem wholeText_eq_of_head? {units places : ℕ}
    (h : (wholeText units places).head? = some '0') : wholeText units places = ['0'] := by
  by_cases hlong : places < (natText units).length
  · -- the leading zero is that of the number, which is zero then
    rw [wholeText, paddedText_of_lt hlong, List.head?_take, if_neg (by omega)] at h
    obtain rfl := eq_zero_of_head?_natText h
    have hdigit : (natText 0).length = 1 := by decide
    obtain rfl : places = 0 := by omega
    decide
  · exact wholeText_of_le (Nat.not_lt.1 hlong)

/-! ### Units of the last place -/

/-- The multiple of the last of `places` places that is nearest to a number. -/
def roundedTo (x : Number) (places : ℕ) : Number := nearest (x * 10 ^ places) / 10 ^ places

/-- The text of an integer number of units of the last place. -/
def unitsText (n : ℤ) (places : ℕ) : List Char :=
  (if n < 0 then ['-'] else []) ++ withPoint (paddedText n.natAbs places) places

theorem rounded_eq (x : Number) (places : ℕ) :
    rounded x places = (nearest (x * 10 ^ places)).natAbs := by
  have habs : |x * 10 ^ places| = ((x.num.natAbs * Nat.pow 10 places : ℕ) : ℚ) / x.den := by
    have hpow : ((Nat.pow 10 places : ℕ) : ℚ) = 10 ^ places := by exact_mod_cast rfl
    have hnum : |x| = (x.num.natAbs : ℚ) / x.den := by
      conv_lhs => rw [← Rat.num_div_den x, abs_div, Nat.abs_cast]
      rw [Nat.cast_natAbs, Int.cast_abs]
    rw [abs_mul, abs_of_pos (show (0 : ℚ) < 10 ^ places by positivity), hnum, Nat.cast_mul, hpow]
    ring
  have hround := roundDiv_eq_floor (x.num.natAbs * Nat.pow 10 places) x.den_pos
  rw [← habs, ← natAbs_nearest] at hround
  exact_mod_cast hround

/-- **What is written is the nearest integer, in units of the last place.** -/
theorem fixed_eq (x : Number) (places : ℕ) :
    fixed x places = unitsText (nearest (x * 10 ^ places)) places := by
  have hsign : x < 0 ∧ rounded x places ≠ 0 ↔ nearest (x * 10 ^ places) < 0 := by
    have hpos : (0 : ℚ) < 10 ^ places := by positivity
    have hscale : x * 10 ^ places < 0 ↔ x < 0 := by
      rw [mul_neg_iff]
      simp [hpos, hpos.not_gt]
    rw [nearest_neg_iff, rounded_eq, hscale]
  unfold fixed unitsText paddedText
  by_cases hneg : nearest (x * 10 ^ places) < 0
  · rw [if_pos hneg, if_pos (hsign.2 hneg), rounded_eq, List.singleton_append]
  · rw [if_neg hneg, if_neg (mt hsign.1 hneg), rounded_eq, List.nil_append]

theorem spells_unitsText (n : ℤ) (places : ℕ) :
    Literal.Spells (unitsText n places)
      ⟨decide (n < 0), wholeText n.natAbs places, fractionText n.natAbs places, 0⟩ := by
  have hsign : Literal.SpellsSign (if n < 0 then ['-'] else []) (decide (n < 0)) := by
    split
    · next hneg => exact decide_eq_true hneg ▸ .minus
    · next hneg => exact decide_eq_false hneg ▸ .absent
  have hfraction : Literal.SpellsFraction
      (if places = 0 then [] else '.' :: fractionText n.natAbs places)
      (fractionText n.natAbs places) := by
    split
    · next hplaces =>
      rw [List.eq_nil_of_length_eq_zero ((length_fractionText n.natAbs places).trans hplaces)]
      exact .absent
    · exact .point _
  have hnil := wholeText_ne_nil n.natAbs places
  have hdigits : ∀ c ∈ wholeText n.natAbs places ++ fractionText n.natAbs places,
      c.isDigit = true := by
    intro c hc
    rw [wholeText_append_fractionText] at hc
    exact isDigit_of_mem_paddedText hc
  have hspells := Literal.Spells.intro hsign hfraction .absent (by simp [hnil]) hdigits
  rwa [List.append_nil, ← withPoint_paddedText] at hspells

/-- **A number of units is read back.** -/
theorem readChars_unitsText (n : ℤ) (places : ℕ) :
    readChars (unitsText n places) = .ok ((n : ℚ) / 10 ^ places) := by
  have hvalue : Literal.value ⟨decide (n < 0), wholeText n.natAbs places,
      fractionText n.natAbs places, 0⟩ = (n : ℚ) / 10 ^ places := by
    rw [Literal.value, Literal.significand, wholeText_append_fractionText, digitsValue_paddedText,
      signed_natAbs, scaled_eq, length_fractionText, zero_sub, zpow_neg, zpow_natCast]
    exact (div_eq_mul_inv _ _).symm
  rw [readChars_of_spells (spells_unitsText n places),
    Literal.evaluate_of_exponent_eq_zero rfl, hvalue]

/-! ### Rounding -/

theorem roundedTo_mul (x : Number) (places : ℕ) :
    roundedTo x places * 10 ^ places = nearest (x * 10 ^ places) :=
  div_mul_cancel₀ _ (by positivity)

theorem roundedTo_neg_iff {x : Number} {places : ℕ} :
    roundedTo x places < 0 ↔ nearest (x * 10 ^ places) < 0 := by
  have hpos : (0 : ℚ) < 10 ^ places := by positivity
  rw [roundedTo, div_neg_iff]
  simp [hpos, hpos.not_gt]

/-- Rounding moves a number by half a unit of the last place at most. -/
theorem abs_roundedTo_sub_le (x : Number) (places : ℕ) :
    |roundedTo x places - x| ≤ 1 / (2 * 10 ^ places) := by
  have hpos : (0 : ℚ) < 10 ^ places := by positivity
  have hclose := (nearest_eq_iff.1 (rfl : nearest (x * 10 ^ places) = _)).1
  have hscaled : |roundedTo x places - x| * 10 ^ places =
      |x * 10 ^ places - nearest (x * 10 ^ places)| := by
    rw [← roundedTo_mul, ← sub_mul, abs_mul, abs_of_pos hpos, abs_sub_comm]
  rw [← hscaled] at hclose
  calc |roundedTo x places - x| = |roundedTo x places - x| * 10 ^ places / 10 ^ places :=
        (mul_div_cancel_right₀ _ hpos.ne').symm
    _ ≤ 1 / 2 / 10 ^ places := by gcongr
    _ = 1 / (2 * 10 ^ places) := div_div _ _ _

/-- **The text of a number with a fixed number of places.**  It is a minus sign if the rounded
number is negative, an integer part without a superfluous zero and, behind a point, as many
digits as there are places.  It is read as the nearest multiple of the last place, and that is
all it depends on; a number that is such a multiple is read back. -/
theorem fixed_rounds (x : Number) (places : ℕ) :
    (∃ whole fraction, fixed x places =
        (if roundedTo x places < 0 then ['-'] else []) ++
          (whole ++ (if places = 0 then [] else '.' :: fraction)) ∧
      whole ≠ [] ∧ (whole.head? = some '0' → whole = ['0']) ∧
      fraction.length = places ∧ ∀ c ∈ whole ++ fraction, c.isDigit = true) ∧
    read (String.ofList (fixed x places)) = .ok (roundedTo x places) ∧
    |roundedTo x places - x| ≤ 1 / (2 * 10 ^ places) ∧
    fixed (roundedTo x places) places = fixed x places ∧
    ∀ n : ℤ, x * 10 ^ places = n → read (String.ofList (fixed x places)) = .ok x := by
  have hread : read (String.ofList (fixed x places)) = .ok (roundedTo x places) := by
    rw [read, String.toList_ofList, fixed_eq, readChars_unitsText]
    rfl
  refine ⟨?_, hread, abs_roundedTo_sub_le x places, ?_, ?_⟩
  · refine ⟨wholeText (nearest (x * 10 ^ places)).natAbs places,
      fractionText (nearest (x * 10 ^ places)).natAbs places, ?_, wholeText_ne_nil _ _,
      wholeText_eq_of_head?, length_fractionText _ _, ?_⟩
    · simp only [fixed_eq, unitsText, withPoint_paddedText, roundedTo_neg_iff]
    · intro c hc
      rw [wholeText_append_fractionText] at hc
      exact isDigit_of_mem_paddedText hc
  · -- the rounded number has the same nearest integer
    rw [fixed_eq, roundedTo_mul, nearest_intCast, fixed_eq]
  · intro n hn
    -- a multiple of the last place is rounded to itself
    have hround : roundedTo x places = x := by
      rw [roundedTo, hn, nearest_intCast, ← hn]
      exact mul_div_cancel_right₀ _ (by positivity)
    rw [hread, hround]

/-- A carry makes the digits longer; three places are enough for 1.25. -/
theorem fixed_rounds_carry :
    fixed (-1999 / 200) 2 = ['-', '1', '0', '.', '0', '0'] ∧
      read (String.ofList (fixed (-1999 / 200) 2)) = .ok (-10) ∧
      read (String.ofList (fixed (5 / 4) 3)) = .ok (5 / 4) := by
  have hround : roundedTo (-1999 / 200) 2 = -10 := by decide +kernel
  refine ⟨by decide +kernel, ?_, ?_⟩
  · rw [(fixed_rounds (-1999 / 200) 2).2.1, hround]
  · exact (fixed_rounds (5 / 4) 3).2.2.2.2 1250 (by norm_num)

end Number

end ExactUnits
