import ExactUnits.Proofs.Number.Grammar
import ExactUnits.Quantity.Reader

/-!
# The scan for a number

Where no blank shows the end of a number, a scan finds it, which looks at most two characters
ahead: at a bar whether a digit follows, and at an exponent mark whether an exponent does.
The scan goes over a whole literal whatever stands behind it, because what it looks ahead at
belongs to the literal too, and it stops in front of every text that cannot go on with a
number.

## Main definitions

* `Quantity.Passes` — texts that the scan goes over, whatever stands behind them.
* `Quantity.EndsNumber` — texts that cannot go on with a number in front of them.

## Main results

* `Quantity.passes_of_spells` — **the scan goes over every literal.**
* `Quantity.splitNumberFrom_of_endsNumber` — **it stops in front of other texts.**
-/

namespace ExactUnits

open Text

namespace Quantity

variable {s d s' d' s'' d'' : Bool} {text text' : List Char}

/-! ### What the scan goes over -/

/-- From the state `s`, `d` the scan goes over a text into the state `s'`, `d'`, whatever
stands behind it.  The states say whether a sign is allowed and whether a digit was seen. -/
def Passes (s d : Bool) (text : List Char) (s' d' : Bool) : Prop :=
  ∀ rest, splitNumberFrom s d (text ++ rest) =
    (text ++ (splitNumberFrom s' d' rest).1, (splitNumberFrom s' d' rest).2)

@[simp] theorem splitNumberFrom_nil : splitNumberFrom s d [] = ([], []) := rfl

theorem Passes.nil : Passes s d [] s d := fun _ => rfl

theorem Passes.append (h : Passes s d text s' d') (h' : Passes s' d' text' s'' d'') :
    Passes s d (text ++ text') s'' d'' := by
  intro rest
  rw [List.append_assoc, h, h', List.append_assoc]

/-- The scan goes over a character if it can go on with it in front of what follows. -/
theorem Passes.cons {c : Char} (hextends : ∀ rest, extendsNumber s d c (text ++ rest) = true)
    (h : Passes (Literal.isExponentMark c) (d || c.isDigit) text s' d') :
    Passes s d (c :: text) s' d' := by
  intro rest
  rw [List.cons_append, splitNumberFrom, if_pos (hextends rest), h]
  rfl

/-- All of a text that the scan goes over can belong to a number. -/
theorem Passes.splitNumberFrom_eq (h : Passes s d text s' d') :
    splitNumberFrom s d text = (text, []) := by
  have hend := h []
  rwa [splitNumberFrom_nil, List.append_nil] at hend

theorem passes_digits_points (htext : ∀ c ∈ text, c = '.' ∨ c.isDigit = true) (hnil : text ≠ []) :
    Passes s d text false (d || text.any Char.isDigit) := by
  induction text generalizing s d with
  | nil => exact absurd rfl hnil
  | cons c text ih =>
    rw [List.forall_mem_cons] at htext
    obtain ⟨hc, htext⟩ := htext
    have hextends : ∀ rest, extendsNumber s d c (text ++ rest) = true := by
      intro rest
      rcases hc with rfl | hc <;> simp [extendsNumber, *]
    -- neither is an exponent mark, so the state stays
    have hmark : Literal.isExponentMark c = false := by
      rcases hc with rfl | hc
      · decide
      · exact Literal.isExponentMark_of_isDigit hc
    refine .cons hextends ?_
    rw [hmark, List.any_cons, ← Bool.or_assoc]
    by_cases hlast : text = []
    · subst hlast
      rw [List.any_nil, Bool.or_false]
      exact .nil
    · exact ih htext hlast

/-- The scan goes over digits and points with a digit among them, in any state. -/
theorem passes_mantissa (htext : ∀ c ∈ text, c = '.' ∨ c.isDigit = true) {digit : Char}
    (hmem : digit ∈ text) (hdigit : digit.isDigit = true) : Passes s d text false true := by
  have hseen : text.any Char.isDigit = true := List.any_eq_true.2 ⟨digit, hmem, hdigit⟩
  have hpasses := passes_digits_points (s := s) (d := d) htext (List.ne_nil_of_mem hmem)
  rwa [hseen, Bool.or_true] at hpasses

/-- Where a sign is allowed, the scan goes over it if there is one. -/
theorem exists_passes_sign {sign : List Char} {negative : Bool}
    (hsign : Literal.SpellsSign sign negative) : ∃ s', Passes true d sign s' d := by
  cases hsign with
  | absent => exact ⟨true, .nil⟩
  | plus => exact ⟨false, .cons (fun _ => by simp [extendsNumber, isSign]) (by simpa using .nil)⟩
  | minus => exact ⟨false, .cons (fun _ => by simp [extendsNumber, isSign]) (by simpa using .nil)⟩

/-- The scan sees that an exponent follows its mark, and goes over both. -/
theorem passes_exponent {mark : List Char} {exponent : ℤ}
    (h : Literal.SpellsExponent mark exponent) : Passes false true mark false true := by
  cases h with
  | absent => exact .nil
  | @written c sign digits negative hc hsign hnil hdigits _ =>
    obtain ⟨digit, digits', rfl⟩ := List.exists_cons_of_ne_nil hnil
    have hdigit : digit.isDigit = true := hdigits digit (List.mem_cons_self ..)
    have hmark : Literal.isExponentMark c = true := Literal.isExponentMark_iff.2 hc
    have hahead : ∀ rest, startsWithExponent (sign ++ digit :: digits' ++ rest) = true := by
      intro rest
      cases hsign <;> simp [startsWithExponent, startsWithDigit, isSign, hdigit]
    refine .cons (fun rest => ?_) ?_
    · rw [extendsNumber, hahead, hmark]
      simp
    · rw [hmark, Bool.true_or]
      obtain ⟨s', hpasses⟩ := exists_passes_sign hsign
      exact hpasses.append (passes_mantissa (fun c hc => .inr (hdigits c hc))
        (List.mem_cons_self ..) hdigit)

theorem passes_unsigned {whole point fraction mark : List Char} {exponent : ℤ}
    (hpoint : Literal.SpellsFraction point fraction) (hmark : Literal.SpellsExponent mark exponent)
    (hnil : whole ++ fraction ≠ []) (hdigits : ∀ c ∈ whole ++ fraction, c.isDigit = true) :
    Passes s d (whole ++ point ++ mark) false true := by
  obtain ⟨digit, hdigit⟩ := List.exists_mem_of_ne_nil _ hnil
  have hmem : digit ∈ whole ++ point := by
    rw [List.mem_append] at hdigit ⊢
    refine hdigit.imp_right fun hfraction => ?_
    cases hpoint with
    | absent => exact hfraction
    | point => exact List.mem_cons_of_mem _ hfraction
  have hmantissa : Passes s d (whole ++ point) false true :=
    passes_mantissa (fun c => hpoint.cases_of_mem hdigits) hmem (hdigits digit hdigit)
  exact hmantissa.append (passes_exponent hmark)

/-- **The scan goes over every literal.** -/
theorem passes_of_spells {literal : Literal} (h : Literal.Spells text literal) :
    Passes true false text false true := by
  cases h with
  | intro hsign hpoint hmark hnil hdigits =>
    obtain ⟨s', hpasses⟩ := exists_passes_sign hsign
    exact hpasses.append (passes_unsigned hpoint hmark hnil hdigits)

/-- Behind a number the scan goes over a bar and a literal, if that has no sign and no point
in front. -/
theorem passes_bar {literal : Literal} (h : Literal.Spells text literal)
    (hdigit : startsWithDigit text = true) : Passes false true ('/' :: text) false true := by
  refine .cons (fun rest => ?_) ?_
  · have hahead : startsWithDigit (text ++ rest) = true := by
      cases text with
      | nil => cases hdigit
      | cons c text => exact hdigit
    simp [extendsNumber, hahead]
  · cases h with
    | intro hsign hpoint hmark hnil hdigits =>
      cases hsign with
      | absent => exact passes_unsigned hpoint hmark hnil hdigits
      | plus => cases hdigit
      | minus => cases hdigit

/-! ### Where the scan stops -/

/-- A text that cannot go on with a number in front of it: it starts with no digit and no
point, with no bar in front of a number and with no exponent. -/
structure EndsNumber (text : List Char) : Prop where
  /-- No digit or point is in front. -/
  mantissa : ∀ c, c.isDigit = true ∨ c = '.' → ¬ [c] <+: text
  /-- No bar with a digit, a point or a sign behind it is in front. -/
  bar : ∀ c, c.isDigit = true ∨ c ∈ ['.', '+', '-'] → ¬ ['/', c] <+: text
  /-- No exponent mark with a digit behind it, perhaps behind a sign, is in front. -/
  exponent : ∀ mark ∈ ['e', 'E'], ∀ sign ∈ [[], ['+'], ['-']], ∀ c : Char, c.isDigit = true →
    ¬ mark :: (sign ++ [c]) <+: text

/-- Less of such a text is one as well. -/
theorem EndsNumber.of_prefix {front : List Char} (h : EndsNumber text) (hfront : front <+: text) :
    EndsNumber front where
  mantissa := fun c hc hfirst => h.mantissa c hc (hfirst.trans hfront)
  bar := fun c hc hfirst => h.bar c hc (hfirst.trans hfront)
  exponent := fun mark hmark sign hsign c hc hfirst =>
    h.exponent mark hmark sign hsign c hc (hfirst.trans hfront)

theorem startsWithDigit_iff : startsWithDigit text = true ↔ ∃ c, c.isDigit = true ∧ [c] <+: text := by
  cases text <;> simp [startsWithDigit]

/-- A text that starts with an exponent starts with a digit, perhaps behind a sign. -/
theorem exists_of_startsWithExponent (h : startsWithExponent text = true) :
    ∃ sign ∈ [[], ['+'], ['-']], ∃ c : Char, c.isDigit = true ∧ sign ++ [c] <+: text := by
  unfold startsWithExponent at h
  rw [Bool.or_eq_true, Bool.and_eq_true] at h
  rcases h with hdigit | ⟨hsign, hdigit⟩
  · obtain ⟨c, hc, hfirst⟩ := startsWithDigit_iff.1 hdigit
    exact ⟨[], by simp, c, hc, hfirst⟩
  · cases text with
    | nil => cases hsign
    | cons b text =>
      obtain ⟨c, hc, hfirst⟩ := startsWithDigit_iff.1 hdigit
      have hb : b = '+' ∨ b = '-' := by simpa [isSign] using hsign
      have hsign : [b] ∈ [[], ['+'], ['-']] := by rcases hb with rfl | rfl <;> simp
      exact ⟨[b], hsign, c, hc, List.cons_prefix_cons.2 ⟨rfl, hfirst⟩⟩

/-- Behind a number, the scan stops in front of a text that cannot go on with it. -/
theorem splitNumberFrom_of_endsNumber (h : EndsNumber text) :
    splitNumberFrom false true text = ([], text) := by
  cases text with
  | nil => rfl
  | cons c rest =>
    have hstop : extendsNumber false true c rest = false := by
      refine Bool.eq_false_iff.2 fun hextends => ?_
      simp only [extendsNumber, Bool.and_false, Bool.and_true, Bool.or_false, Bool.or_eq_true,
        Bool.and_eq_true, beq_iff_eq] at hextends
      -- a digit or a point, a bar before a digit, or an exponent could go on
      rcases hextends with ((hdigit | hpoint) | ⟨rfl, hahead⟩) | ⟨hmark, hahead⟩
      · exact h.mantissa c (.inl hdigit) (List.prefix_append [c] rest)
      · exact h.mantissa c (.inr hpoint) (List.prefix_append [c] rest)
      · obtain ⟨digit, hdigit, hfirst⟩ := startsWithDigit_iff.1 hahead
        exact h.bar digit (.inl hdigit) (List.cons_prefix_cons.2 ⟨rfl, hfirst⟩)
      · obtain ⟨sign, hsign, digit, hdigit, hfirst⟩ := exists_of_startsWithExponent hahead
        have hc : c ∈ ['e', 'E'] := by simpa using Literal.isExponentMark_iff.1 hmark
        exact h.exponent c hc sign hsign digit hdigit (List.cons_prefix_cons.2 ⟨rfl, hfirst⟩)
    rw [splitNumberFrom, hstop]
    rfl

theorem Passes.splitNumberFrom_append (h : Passes s d text false true) (hends : EndsNumber text') :
    splitNumberFrom s d (text ++ text') = (text, text') := by
  rw [h, splitNumberFrom_of_endsNumber hends, List.append_nil]

theorem EndsNumber.of_blank {c : Char} (hc : isBlank c = true) (rest : List Char) :
    EndsNumber (c :: rest) := by
  have hfirst : ∀ {e back}, isBlank e = false → ¬ e :: back <+: c :: rest := by
    intro e back he hprefix
    obtain ⟨rfl, -⟩ := List.cons_prefix_cons.1 hprefix
    rw [hc] at he
    cases he
  refine ⟨?_, fun d _ => hfirst (by decide), ?_⟩
  · rintro d (hd | rfl)
    · exact hfirst (isBlank_of_isDigit hd)
    · exact hfirst (by decide)
  · intro mark hmark sign _ d _
    have hvisible : ['e', 'E'].any isBlank = false := by decide
    rw [List.any_eq_false] at hvisible
    exact hfirst (Bool.eq_false_iff.2 (hvisible mark hmark))

end Quantity

end ExactUnits
