import Mathlib
import ExactUnits.Number.Literal
import ExactUnits.Proofs.Number.Power
import ExactUnits.Proofs.Outcome
import ExactUnits.Proofs.Text.Characters
import ExactUnits.Proofs.Text.Replacement

/-!
# The grammar of numbers

A literal is an optional sign, digits with at most one point among them and at least one
digit in all, and an optional exponent.  The grammar is a relation between texts and
literals, with one relation for each optional part.  The reader cuts a text at its first
exponent mark and at its first point; neither is a digit or a sign, so in a literal the
cuts fall where the grammar has the parts meet, and the reader finds the literal of a text
whenever there is one.

What is read as a number is described in the same way, for every text: which error it is
for a text that spells no literal, for an exponent out of range and for a fraction, when
reading panics, and otherwise the exact value.

## Main definitions

* `Literal.SpellsSign`, `Literal.SpellsFraction`, `Literal.SpellsExponent` — the optional
  parts of a literal.
* `Literal.Spells` — the texts of a literal.
* `Number.ReadsPart`, `Number.Reads` — what a text without a bar, and any text without outer
  blanks, is read as.

## Main results

* `Literal.ofText?_eq_some_iff` — **the reader accepts the grammar, and nothing else.**
* `Number.readPart_eq_iff` — what a part of a text is read as, errors included.
* `Number.readChars_of_spells` — a literal is read as its value.
* `Number.read_eq_iff` — **what a text is read as: the error it deserves, or the exact
  number.**
-/

namespace ExactUnits

open Text

/-! ### The grammar -/

namespace Literal

/-- The text of an optional sign, and whether it is a minus sign. -/
inductive SpellsSign : List Char → Bool → Prop
  | absent : SpellsSign [] false
  | plus : SpellsSign ['+'] false
  | minus : SpellsSign ['-'] true

/-- What may stand behind the whole digits: nothing, or a point and the digits of the
fraction. -/
inductive SpellsFraction : List Char → List Char → Prop
  | absent : SpellsFraction [] []
  | point (fraction : List Char) : SpellsFraction ('.' :: fraction) fraction

/-- The text of an optional exponent, and its value: a mark, an optional sign and one or
more digits whose value fits a signed 64-bit integer. -/
inductive SpellsExponent : List Char → ℤ → Prop
  | absent : SpellsExponent [] 0
  | written {mark : Char} {sign digits : List Char} {negative : Bool}
      (hmark : mark = 'e' ∨ mark = 'E') (hsign : SpellsSign sign negative) (hnil : digits ≠ [])
      (hdigits : ∀ c ∈ digits, c.isDigit = true)
      (hfits : Number.FitsInt64 (signed negative (digitsValue digits))) :
      SpellsExponent (mark :: (sign ++ digits)) (signed negative (digitsValue digits))

/-- The texts of a literal: a sign, the whole digits, a point with the digits of the
fraction and an exponent, in this order.  Only digits there have to be. -/
inductive Spells : List Char → Literal → Prop
  | intro {sign point mark whole fraction : List Char} {negative : Bool} {exponent : ℤ}
      (hsign : SpellsSign sign negative) (hpoint : SpellsFraction point fraction)
      (hmark : SpellsExponent mark exponent) (hnil : whole ++ fraction ≠ [])
      (hdigits : ∀ c ∈ whole ++ fraction, c.isDigit = true) :
      Spells (sign ++ (whole ++ point ++ mark)) ⟨negative, whole, fraction, exponent⟩

/-! ### Signs and digits -/

theorem isDigits_iff {text : List Char} :
    isDigits text = true ↔ text ≠ [] ∧ ∀ c ∈ text, c.isDigit = true := by
  simp [isDigits]

theorem isExponentMark_iff {c : Char} : isExponentMark c = true ↔ c = 'e' ∨ c = 'E' := by
  simp [isExponentMark]

theorem isExponentMark_of_isDigit {c : Char} (h : c.isDigit = true) : isExponentMark c = false := by
  refine Bool.eq_false_iff.2 fun hmark => ?_
  rcases isExponentMark_iff.1 hmark with rfl | rfl <;> exact absurd h (by decide)

theorem splitSign_append {sign body : List Char} {negative : Bool}
    (hsign : SpellsSign sign negative) (hbody : ∀ c ∈ body.head?, c = '.' ∨ c.isDigit = true) :
    splitSign (sign ++ body) = (negative, body) := by
  cases hsign with
  | absent =>
    rw [List.nil_append]
    unfold splitSign
    split
    · exact absurd (hbody '-' rfl) (by decide)
    · exact absurd (hbody '+' rfl) (by decide)
    · rfl
  | plus => rfl
  | minus => rfl

theorem exists_splitSign (text : List Char) :
    ∃ sign negative body, SpellsSign sign negative ∧ text = sign ++ body ∧
      splitSign text = (negative, body) := by
  unfold splitSign
  split
  · exact ⟨['-'], true, _, .minus, rfl, rfl⟩
  · exact ⟨['+'], false, _, .plus, rfl, rfl⟩
  · exact ⟨[], false, _, .absent, rfl, rfl⟩

/-! ### Exponents -/

/-- The reader of exponents, with what is split off in place. -/
theorem readExponent?_of_splitSign {text digits : List Char} {negative : Bool}
    (h : splitSign text = (negative, digits)) :
    readExponent? text =
      if isDigits digits ∧ Number.FitsInt64 (signed negative (digitsValue digits)) then
        some (signed negative (digitsValue digits)) else none := by
  unfold readExponent?
  rw [h]

/-- **Behind an exponent mark, the reader accepts the exponents of the grammar.** -/
theorem spellsExponent_cons_iff {mark : Char} {text : List Char} {exponent : ℤ} :
    SpellsExponent (mark :: text) exponent ↔
      isExponentMark mark = true ∧ readExponent? text = some exponent := by
  constructor
  · intro h
    cases h with
    | written hmark hsign hnil hdigits hfits =>
      have hsplit := splitSign_append hsign fun c hc => .inr (hdigits c (List.mem_of_mem_head? hc))
      refine ⟨isExponentMark_iff.2 hmark, ?_⟩
      rw [readExponent?_of_splitSign hsplit]
      exact if_pos ⟨isDigits_iff.2 ⟨hnil, hdigits⟩, hfits⟩
  · rintro ⟨hmark, h⟩
    obtain ⟨sign, negative, digits, hsign, rfl, hsplit⟩ := exists_splitSign text
    rw [readExponent?_of_splitSign hsplit] at h
    split at h
    · next hvalid =>
      obtain ⟨hnil, hdigits⟩ := isDigits_iff.1 hvalid.1
      obtain rfl := Option.some.inj h
      exact .written (isExponentMark_iff.1 hmark) hsign hnil hdigits hvalid.2
    · cases h

/-! ### Literals -/

/-- The reader of literals, with what is split and cut off in place. -/
theorem ofText?_of_cuts {text body mantissa whole point mark : List Char} {negative : Bool}
    (hsign : splitSign text = (negative, body))
    (hmark : cutAt isExponentMark body = (mantissa, mark.tail?))
    (hpoint : cutAt (· == '.') mantissa = (whole, point.tail?)) :
    ofText? text =
      if isDigits (whole ++ point.tail) then
        match mark with
        | [] => some ⟨negative, whole, point.tail, 0⟩
        | _ :: written => (readExponent? written).map fun exponent =>
            ⟨negative, whole, point.tail, exponent⟩
      else none := by
  unfold ofText?
  rw [hsign]
  simp only [hmark, hpoint]
  cases point <;> cases mark <;> rfl

theorem SpellsFraction.cases_of_mem {point whole fraction : List Char}
    (hpoint : SpellsFraction point fraction) (hdigits : ∀ c ∈ whole ++ fraction, c.isDigit = true)
    {c : Char} (hc : c ∈ whole ++ point) : c = '.' ∨ c.isDigit = true := by
  cases hpoint with
  | absent => exact .inr (hdigits c hc)
  | point =>
    rw [List.mem_append, List.mem_cons] at hc
    rw [List.forall_mem_append] at hdigits
    rcases hc with hc | hc | hc
    · exact .inr (hdigits.1 c hc)
    · exact .inl hc
    · exact .inr (hdigits.2 c hc)

/-- The reader finds the literal that a text spells. -/
theorem Spells.ofText?_eq {text : List Char} {literal : Literal} (h : Spells text literal) :
    ofText? text = some literal := by
  cases h with
  | @intro sign point mark whole fraction negative exponent hsign hpoint hmark hnil hdigits =>
    have htail : point.tail = fraction := by cases hpoint <;> rfl
    have hmantissa : whole ++ point ≠ [] := by
      cases hpoint with
      | absent => exact hnil
      | point => simp
    -- the text in front of the exponent starts with a digit or the point, not with a sign
    have hbody : splitSign (sign ++ (whole ++ point ++ mark)) =
        (negative, whole ++ point ++ mark) := by
      refine splitSign_append hsign ?_
      intro c hc
      rw [List.head?_append_of_ne_nil _ hmantissa] at hc
      exact hpoint.cases_of_mem hdigits (List.mem_of_mem_head? hc)
    have hcutmark : cutAt isExponentMark (whole ++ point ++ mark) =
        (whole ++ point, mark.tail?) := by
      refine cutAt_append ?_ ?_
      · intro c hc
        rcases hpoint.cases_of_mem hdigits hc with rfl | hc
        · decide
        · exact isExponentMark_of_isDigit hc
      · intro c hc
        cases hmark with
        | absent => cases hc
        | written hmark => exact Option.some.inj hc ▸ isExponentMark_iff.2 hmark
    have hcutpoint : cutAt (· == '.') (whole ++ point) = (whole, point.tail?) := by
      refine cutAt_append ?_ ?_
      · intro c hc
        simpa using ne_of_isDigit (hdigits c (List.mem_append_left _ hc)) rfl
      · intro c hc
        cases hpoint with
        | absent => cases hc
        | point => simpa using hc.symm
    rw [ofText?_of_cuts hbody hcutmark hcutpoint, htail, if_pos (isDigits_iff.2 ⟨hnil, hdigits⟩)]
    cases mark with
    | nil =>
      cases hmark
      rfl
    | cons c written =>
      show Option.map _ (readExponent? written) = _
      rw [(spellsExponent_cons_iff.1 hmark).2, Option.map_some]

theorem spells_of_ofText? {text : List Char} {literal : Literal} (h : ofText? text = some literal) :
    Spells text literal := by
  obtain ⟨sign, negative, body, hsign, rfl, hbody⟩ := exists_splitSign text
  obtain ⟨mantissa, mark, rfl, hcutmark, -, hmark⟩ := exists_cutAt isExponentMark body
  obtain ⟨whole, point, rfl, hcutpoint, -, hpoint⟩ := exists_cutAt (· == '.') mantissa
  rw [ofText?_of_cuts hbody hcutmark hcutpoint] at h
  split at h
  · next hvalid =>
    obtain ⟨hnil, hdigits⟩ := isDigits_iff.1 hvalid
    -- what is left of the mantissa begins with the point, if there is one
    have hfraction : SpellsFraction point point.tail := by
      cases point with
      | nil => exact .absent
      | cons c rest =>
        obtain rfl : c = '.' := by simpa using hpoint c rfl
        exact .point rest
    cases mark with
    | nil =>
      obtain rfl := Option.some.inj h
      exact .intro hsign hfraction .absent hnil hdigits
    | cons c written =>
      obtain ⟨exponent, hexponent, rfl⟩ := Option.map_eq_some_iff.1 h
      have hspells := spellsExponent_cons_iff.2 ⟨hmark c rfl, hexponent⟩
      exact .intro hsign hfraction hspells hnil hdigits
  · cases h

theorem SpellsSign.mem_signs {sign : List Char} {negative : Bool} (h : SpellsSign sign negative)
    {c : Char} (hc : c ∈ sign) : c ∈ ['+', '-'] := by
  cases h with
  | absent => cases hc
  | plus =>
    obtain rfl := List.mem_singleton.1 hc
    decide
  | minus =>
    obtain rfl := List.mem_singleton.1 hc
    decide

theorem Spells.cases_of_mem {text : List Char} {literal : Literal} (h : Spells text literal)
    {c : Char} (hc : c ∈ text) : c ∈ ['+', '-', '.', 'e', 'E'] ∨ c.isDigit = true := by
  cases h with
  | intro hsign hpoint hmark hnil hdigits =>
    rw [List.mem_append, List.mem_append] at hc
    rcases hc with hc | hc | hc
    · exact .inl (List.mem_append_left ['.', 'e', 'E'] (hsign.mem_signs hc))
    · rcases hpoint.cases_of_mem hdigits hc with rfl | hc
      · exact .inl (by decide)
      · exact .inr hc
    · cases hmark with
      | absent => cases hc
      | written hmark hsign hnil hdigits hfits =>
        rw [List.mem_cons, List.mem_append] at hc
        rcases hc with rfl | hc | hc
        · rcases hmark with rfl | rfl <;> exact .inl (by decide)
        · exact .inl (List.mem_append_left ['.', 'e', 'E'] (hsign.mem_signs hc))
        · exact .inr (hdigits c hc)

/-- A literal has no blanks. -/
theorem Spells.visible {text : List Char} {literal : Literal} (h : Spells text literal) :
    ∀ c ∈ text, isBlank c = false := by
  intro c hc
  rcases h.cases_of_mem hc with hmark | hdigit
  · simp only [List.mem_cons, List.not_mem_nil, or_false] at hmark
    rcases hmark with rfl | rfl | rfl | rfl | rfl <;> decide
  · exact isBlank_of_isDigit hdigit

/-- A literal has no bar. -/
theorem Spells.bar_notMem {text : List Char} {literal : Literal} (h : Spells text literal) :
    '/' ∉ text := by
  intro hmem
  rcases h.cases_of_mem hmem with hmark | hdigit
  · exact absurd hmark (by decide)
  · exact absurd hdigit (by decide)

/-- **The reader accepts the texts of the grammar, and nothing else.** -/
theorem ofText?_eq_some_iff {text : List Char} {literal : Literal} :
    ofText? text = some literal ↔ Spells text literal :=
  ⟨spells_of_ofText?, Spells.ofText?_eq⟩

/-- The value of a literal: its digits, with its sign, shifted by its exponent and by the
length of its fraction. -/
theorem value_eq (literal : Literal) :
    literal.value = (if literal.negative then -1 else 1) *
      (digitsValue (literal.whole ++ literal.fraction) : ℚ) *
        10 ^ (literal.exponent - literal.fraction.length : ℤ) := by
  have hsignificand : (literal.significand : ℚ) = (if literal.negative then -1 else 1) *
      (digitsValue (literal.whole ++ literal.fraction) : ℚ) := by
    unfold significand signed
    cases literal.negative <;> simp
  rw [value, Number.scaled_eq, hsignificand]
  norm_num

end Literal

/-! ### Numbers -/

namespace Number

/-- What a text without a bar is read as, an error showing `source`: no number unless it
spells a literal, and the exact value of that literal unless its exponent is out of
range.  The exponent `-2 ^ 63` has no magnitude in 64 bits, and a literal with it makes the
reader panic. -/
inductive ReadsPart (source part : List Char) : Except (Failure NumberError) Number → Prop
  | malformed (hpart : ∀ literal, ¬ Literal.Spells part literal) :
      ReadsPart source part (.error (.returned (.malformed (String.ofList source))))
  | least {literal : Literal} (hpart : Literal.Spells part literal)
      (hleast : literal.exponent = -2 ^ 63) : ReadsPart source part (.error (.panic none))
  | overflow {literal : Literal} (hpart : Literal.Spells part literal)
      (hleast : literal.exponent ≠ -2 ^ 63) (hlimit : 4096 < |literal.exponent|) :
      ReadsPart source part (.error (.returned .overflow))
  | exact {literal : Literal} (hpart : Literal.Spells part literal)
      (hlimit : |literal.exponent| ≤ 4096) :
      ReadsPart source part (.ok ((if literal.negative then -1 else 1) *
        (Literal.digitsValue (literal.whole ++ literal.fraction) : ℚ) *
          10 ^ (literal.exponent - literal.fraction.length : ℤ)))

/-- What a text without outer blanks is read as.  The text is cut at its first bar; the
sides are trimmed and read from left to right before they are divided. -/
inductive Reads (text : List Char) : Except (Failure NumberError) Number → Prop
  | plain {outcome : Except (Failure NumberError) Number} (hbar : '/' ∉ text)
      (hpart : ReadsPart text text outcome) : Reads text outcome
  | numerator {above below a : List Char} {e : Failure NumberError} (hbar : '/' ∉ above)
      (htext : text = above ++ '/' :: below) (ha : Trimmed above a)
      (hpart : ReadsPart text a (.error e)) : Reads text (.error e)
  | denominator {above below a b : List Char} {n : Number} {e : Failure NumberError}
      (hbar : '/' ∉ above) (htext : text = above ++ '/' :: below) (ha : Trimmed above a)
      (hb : Trimmed below b) (hn : ReadsPart text a (.ok n)) (hpart : ReadsPart text b (.error e)) :
      Reads text (.error e)
  | zero {above below a b : List Char} {n : Number} (hbar : '/' ∉ above)
      (htext : text = above ++ '/' :: below) (ha : Trimmed above a) (hb : Trimmed below b)
      (hn : ReadsPart text a (.ok n)) (hd : ReadsPart text b (.ok 0)) :
      Reads text (.error (.returned .divisionByZero))
  | quotient {above below a b : List Char} {n d : Number} (hbar : '/' ∉ above)
      (htext : text = above ++ '/' :: below) (ha : Trimmed above a) (hb : Trimmed below b)
      (hn : ReadsPart text a (.ok n)) (hd : ReadsPart text b (.ok d)) (hzero : d ≠ 0) :
      Reads text (.ok (n / d))

/-- An exponent beyond the limit, as the grammar has it. -/
theorem exponentLimit_lt_natAbs_iff {e : ℤ} : Literal.exponentLimit < e.natAbs ↔ 4096 < |e| := by
  rw [Literal.exponentLimit, ← Int.natCast_natAbs]
  omega

/-- A literal is evaluated by its exponent: the least one of all, one that is out of range, or
one within the limit. -/
theorem readsPart_evaluate {source part : List Char} {literal : Literal}
    (h : Literal.Spells part literal) : ReadsPart source part literal.evaluate := by
  unfold Literal.evaluate
  split
  · next hleast => exact .least h hleast
  · next hleast =>
    split
    · next hlimit => exact .overflow h hleast (exponentLimit_lt_natAbs_iff.1 hlimit)
    · next hlimit =>
      rw [literal.value_eq]
      exact .exact h (not_lt.1 (mt exponentLimit_lt_natAbs_iff.2 hlimit))

/-- **A part is read as the grammar has it.** -/
theorem readPart_eq_iff {source part : List Char} {outcome : Except (Failure NumberError) Number} :
    readPart source part = outcome ↔ ReadsPart source part outcome := by
  constructor
  · rintro rfl
    unfold readPart
    cases hliteral : Literal.ofText? part with
    | none =>
      refine .malformed ?_
      intro literal hspells
      rw [hspells.ofText?_eq] at hliteral
      cases hliteral
    | some literal => exact readsPart_evaluate (Literal.spells_of_ofText? hliteral)
  · intro h
    unfold readPart
    -- a text spells one literal at most, so the reader meets the one that the grammar has
    cases h with
    | malformed hpart =>
      have hliteral : Literal.ofText? part = none := by
        refine Option.eq_none_iff_forall_ne_some.2 ?_
        intro literal h
        exact hpart literal (Literal.spells_of_ofText? h)
      rw [hliteral]
    | least hpart hleast =>
      rw [hpart.ofText?_eq]
      exact if_pos hleast
    | overflow hpart hleast hlimit =>
      rw [hpart.ofText?_eq]
      exact (if_neg hleast).trans (if_pos (exponentLimit_lt_natAbs_iff.2 hlimit))
    | @exact literal hpart hlimit =>
      have hleast : literal.exponent ≠ Literal.leastExponent := by
        intro hleast
        rw [hleast] at hlimit
        exact absurd hlimit (by decide)
      rw [hpart.ofText?_eq, ← literal.value_eq]
      exact (if_neg hleast).trans (if_neg (mt exponentLimit_lt_natAbs_iff.1 (not_lt.2 hlimit)))

theorem readTrimmed_of_notMem {text : List Char} (hbar : '/' ∉ text) :
    readTrimmed text = readPart text text := by
  unfold readTrimmed
  rw [cutAt_of_notMem hbar]

theorem readTrimmed_of_bar {text above below a b : List Char} (hbar : '/' ∉ above)
    (htext : text = above ++ '/' :: below) (ha : Trimmed above a) (hb : Trimmed below b) :
    readTrimmed text = readPart text a >>= fun n => readPart text b >>= fun d =>
      (divide n d).mapError .returned := by
  have hcut : cutAt (· == '/') text = (above, some below) := by
    rw [htext, cutAt_of_first hbar]
  unfold readTrimmed
  rw [hcut]
  simp only [ha.trim_eq, hb.trim_eq]

/-- A literal has no blanks and no bar, so all of it is read as one part. -/
theorem readChars_of_spells {text : List Char} {literal : Literal}
    (h : Literal.Spells text literal) : readChars text = literal.evaluate := by
  unfold readChars
  rw [trim_eq_self_of_forall h.visible, readTrimmed_of_notMem h.bar_notMem, readPart,
    h.ofText?_eq]

/-- The numerator is read first, and reading ends there if it panics. -/
theorem readChars_of_numerator {above below : List Char} {literal : Literal}
    (h : Literal.Spells above literal) (hbelow : ∀ c ∈ below, isBlank c = false)
    {failure : Failure NumberError} (hfailure : literal.evaluate = .error failure) :
    readChars (above ++ '/' :: below) = .error failure := by
  have hvisible : ∀ c ∈ above ++ '/' :: below, isBlank c = false :=
    List.forall_mem_append.2 ⟨h.visible, List.forall_mem_cons.2 ⟨by decide, hbelow⟩⟩
  have habove : Trimmed above above := trim_eq_iff.1 (trim_eq_self_of_forall h.visible)
  unfold readChars
  rw [trim_eq_self_of_forall hvisible,
    readTrimmed_of_bar h.bar_notMem rfl habove (trimmed_trim below), readPart, h.ofText?_eq]
  show literal.evaluate >>= _ = _
  rw [hfailure]
  rfl

/-- **A text without outer blanks is read as the grammar has it.** -/
theorem readTrimmed_eq_iff {text : List Char} {outcome : Except (Failure NumberError) Number} :
    readTrimmed text = outcome ↔ Reads text outcome := by
  constructor
  · rintro rfl
    by_cases hmem : '/' ∈ text
    · -- the two sides of the first bar, in the order in which they are read
      obtain ⟨above, below, htext, hbar⟩ := List.eq_append_cons_of_mem hmem
      have ha := trimmed_trim above
      have hb := trimmed_trim below
      rw [readTrimmed_of_bar hbar htext ha hb]
      cases hn : readPart text (trim above) with
      | error e => exact .numerator hbar htext ha (readPart_eq_iff.1 hn)
      | ok n =>
        rw [Except.ok_bind]
        cases hd : readPart text (trim below) with
        | error e =>
          exact .denominator hbar htext ha hb (readPart_eq_iff.1 hn) (readPart_eq_iff.1 hd)
        | ok d =>
          rw [Except.ok_bind]
          by_cases hzero : d = 0
          · subst hzero
            rw [divide_zero]
            exact .zero hbar htext ha hb (readPart_eq_iff.1 hn) (readPart_eq_iff.1 hd)
          · rw [divide_of_ne hzero]
            exact .quotient hbar htext ha hb (readPart_eq_iff.1 hn) (readPart_eq_iff.1 hd) hzero
    · rw [readTrimmed_of_notMem hmem]
      exact .plain hmem (readPart_eq_iff.1 rfl)
  · intro h
    -- a trimmed side is the one that the reader trims, so each case is its own computation
    cases h with
    | plain hbar hpart => rw [readTrimmed_of_notMem hbar, readPart_eq_iff.2 hpart]
    | @numerator above below a e hbar htext ha hpart =>
      rw [readTrimmed_of_bar hbar htext ha (trimmed_trim below), readPart_eq_iff.2 hpart]
      rfl
    | denominator hbar htext ha hb hn hpart =>
      rw [readTrimmed_of_bar hbar htext ha hb, readPart_eq_iff.2 hn, Except.ok_bind,
        readPart_eq_iff.2 hpart]
      rfl
    | zero hbar htext ha hb hn hd =>
      rw [readTrimmed_of_bar hbar htext ha hb, readPart_eq_iff.2 hn, Except.ok_bind,
        readPart_eq_iff.2 hd, Except.ok_bind, divide_zero]
      rfl
    | quotient hbar htext ha hb hn hd hzero =>
      rw [readTrimmed_of_bar hbar htext ha hb, readPart_eq_iff.2 hn, Except.ok_bind,
        readPart_eq_iff.2 hd, Except.ok_bind, divide_of_ne hzero]
      rfl

/-- **What a text is read as.**  Blanks around it do not matter; without a bar it has to
spell a literal; with a bar the two sides have to, and the first one that does not is to
blame.  Every number is exact, every other text has its error, and only the exponent `-2 ^ 63`
makes reading panic. -/
theorem read_eq_iff (text : String) (outcome : Except (Failure NumberError) Number) :
    read text = outcome ↔ ∃ core, Trimmed text.toList core ∧ Reads core outcome := by
  constructor
  · rintro rfl
    exact ⟨trim text.toList, trimmed_trim _, readTrimmed_eq_iff.1 rfl⟩
  · rintro ⟨core, hcore, hreads⟩
    show readTrimmed (trim text.toList) = outcome
    rw [hcore.trim_eq, readTrimmed_eq_iff.2 hreads]

/-- Where reading panics, it does so in any build. -/
theorem eq_none_of_read_eq_panic {text : String} {unchecked : Option NumberError}
    (h : read text = .error (.panic unchecked)) : unchecked = none := by
  obtain ⟨core, -, hreads⟩ := (read_eq_iff _ _).1 h
  cases hreads with
  | plain _ hpart => cases hpart; rfl
  | numerator _ _ _ hpart => cases hpart; rfl
  | denominator _ _ _ _ _ hpart => cases hpart; rfl

/-- The numerator's error comes first. -/
example : read "1e4097 / x" = .error (.returned .overflow) := by decide +kernel

end Number

end ExactUnits
