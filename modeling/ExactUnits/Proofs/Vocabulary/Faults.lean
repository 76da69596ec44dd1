import ExactUnits.Proofs.Monomial.Written
import ExactUnits.Proofs.Registry.Names
import ExactUnits.Proofs.UnitOfMeasure.Overflow

/-!
# How reading a unit fails

A text that cannot be read is at fault itself: it names no unit, it has too many bars, it
puts a unit with an offset into an expression, or an exponent does not fit.  The first three
errors show the text as it was given.  Nothing is ever divided by zero and no power is out of
reach of the numbers, because every unit that is read has a positive factor and the exponents
of terms are neither zero nor beyond the limit.  Writing the error does not fail either: the unit
with an offset that it shows is a base unit, and has no exponent that could not be written.

## Main definitions

* `ReadingFault` — the errors of a text that cannot be read.
* `Vocabulary.Positive` — vocabularies of units with positive factors.

## Main results

* `readingInvariant_factor_pos` — the algebra of units keeps factors positive.
* `Vocabulary.Positive.fault_of_readUnit` — **reading fails with such an error only.**
* `Registry.hasLeast_of_isAffine` — the units that errors show can be written.
* `Registry.readUnit_outcome` — **in a registry a text stands for a unit with a positive factor,
  or it is at fault.**
-/

namespace ExactUnits

open Text

/-! ### Errors of texts -/

/-- The errors of a text that cannot be read with a vocabulary. -/
inductive ReadingFault (vocabulary : Vocabulary) (text : String) : UnitError → Prop
  /-- Some part of the text names no unit. -/
  | unknown : ReadingFault vocabulary text (.unknown text)
  /-- The text has more than one bar. -/
  | divisions : ReadingFault vocabulary text (.divisions text)
  /-- A known unit with an offset takes part in an expression. -/
  | composition {key : String} {u : UnitOfMeasure} (hknown : vocabulary key = some u)
      (haffine : u.isAffine = true) : ReadingFault vocabulary text (.composition u.toText text)
  /-- The exponent of a name or of a base dimension does not fit. -/
  | overflow (name : String) : ReadingFault vocabulary text (.exponent (.outOfRange name))

/-- Errors of texts have codes of their own, and none of them concerns the setup. -/
theorem ReadingFault.code_mem {vocabulary : Vocabulary} {text : String} {e : UnitError}
    (h : ReadingFault vocabulary text e) :
    e.code ∈ ["INVALID_UNIT", "MULTIPLE_DIVISION", "COMPOSITION", "EXPONENT_OVERFLOW"] ∧
      e.isFatal = false := by
  cases h <;> simp [UnitError.code, UnitError.isFatal]

/-! ### Positive factors -/

theorem readingInvariant_factor_pos :
    ReadingInvariant (fun u => 0 < u.factor) (fun u => 0 < u.factor) where
  linear := fun _ hu _ => hu
  composite := fun _ hu => hu
  one := zero_lt_one
  mul := by
    intro u v w hu hv h
    rw [(UnitOfMeasure.mul_eq_ok_iff.1 h).2.1]
    exact mul_pos hu hv
  div := by
    intro u v w hu hv h
    rw [(UnitOfMeasure.div_eq_ok_iff.1 h).2.1.2]
    exact div_pos hu hv
  pow := by
    intro u w n hu h
    -- the first power is the unit itself
    by_cases hn : n = 1
    · rw [UnitOfMeasure.pow, if_pos hn] at h
      obtain rfl := Except.ok.inj h
      exact hu
    · have hpower := ((UnitOfMeasure.pow_eq_ok_iff hn).1 h).2.1
      rw [(Number.power_eq_ok_iff.1 hpower).2.2]
      exact zpow_pos hu n

namespace Vocabulary

/-- All units have positive factors. -/
def Positive (vocabulary : Vocabulary) : Prop := ∀ key u, vocabulary key = some u → 0 < u.factor

variable {vocabulary : Vocabulary} {source : String} {term text : List Char} {e : UnitError}

theorem exists_key_of_readTerm {u : UnitOfMeasure} (h : vocabulary.readTerm source term = .ok u)
    (haffine : u.isAffine = true) : ∃ key, vocabulary key = some u := by
  rcases readTerm_eq_ok_iff.1 h with hu | ⟨-, base, n, v, -, hv, ⟨-, rfl⟩ | ⟨hone, -, hpow⟩⟩
  · exact ⟨_, hu⟩
  · exact ⟨_, hv⟩
  · -- a power other than the first has no offset
    have hoffset := ((UnitOfMeasure.pow_eq_ok_iff hone).1 hpow).2.2.2
    rw [UnitOfMeasure.isAffine_eq_false_iff.2 hoffset] at haffine
    cases haffine

namespace Positive

/-! ### Terms and products -/

theorem fault_of_readTerm (hpos : Positive vocabulary)
    (h : vocabulary.readTerm source term = .error e) : ReadingFault vocabulary source e := by
  rw [readTerm] at h
  split at h
  · cases h
  · split at h
    · obtain rfl := Except.error.inj h
      exact .unknown
    · next base n hsplit =>
      split at h
      · obtain rfl := Except.error.inj h
        exact .unknown
      · next v hv =>
        split at h
        · cases h
        · split at h
          · next haffine =>
            obtain rfl := Except.error.inj h
            exact .composition hv haffine
          · -- the limit of terms is below that of numbers
            obtain ⟨hn, hlimit, -⟩ := splitExponent?_eq_some hsplit
            have hpower : n.natAbs ≤ Number.powerLimit := hlimit.trans (by decide)
            obtain ⟨name, rfl⟩ :=
              UnitOfMeasure.exists_of_pow_eq_error (hpos _ _ hv).ne' hn hpower h
            exact .overflow name

theorem fault_of_mulTerm (hpos : Positive vocabulary) {product : UnitOfMeasure}
    (h : vocabulary.mulTerm source product term = .error e) : ReadingFault vocabulary source e := by
  rw [mulTerm] at h
  split at h
  · obtain rfl := Except.error.inj h
    exact .unknown
  · split at h
    · cases h
    · rcases Except.bind_eq_error_iff.1 h with h | ⟨u, hread, h⟩
      · exact hpos.fault_of_readTerm h
      · split at h
        · next haffine =>
          -- an affine unit of a term is that of a key
          obtain rfl := Except.error.inj h
          obtain ⟨key, hkey⟩ := exists_key_of_readTerm hread haffine
          exact .composition hkey haffine
        · obtain ⟨name, rfl⟩ := UnitOfMeasure.exists_of_mul_eq_error h
          exact .overflow name

theorem fault_of_readProduct (hpos : Positive vocabulary)
    (h : vocabulary.readProduct source text = .error e) : ReadingFault vocabulary source e :=
  Except.error_of_foldlM _ (fun _ _ _ _ => hpos.fault_of_mulTerm) h

/-! ### Expressions -/

theorem fault_of_readQuotient (hpos : Positive vocabulary)
    (h : vocabulary.readQuotient source text = .error e) : ReadingFault vocabulary source e := by
  rw [readQuotient_eq] at h
  rcases Except.bind_eq_error_iff.1 h with h | ⟨numerator, -, h⟩
  · exact hpos.fault_of_readProduct h
  · cases hbar : (cutAt (· == '/') text).2 with
    | none =>
      rw [hbar, Option.elim_none, Except.ok_bind] at h
      obtain ⟨name, rfl⟩ := UnitOfMeasure.exists_of_div_eq_error one_ne_zero h
      exact .overflow name
    | some below =>
      rw [hbar, Option.elim_some] at h
      rcases Except.bind_eq_error_iff.1 h with h | ⟨denominator, hdenominator, h⟩
      · exact hpos.fault_of_readProduct h
      · -- what stands below the bar is not zero
        have hfactor : 0 < denominator.factor :=
          readingInvariant_factor_pos.readProduct hpos hdenominator
        obtain ⟨name, rfl⟩ := UnitOfMeasure.exists_of_div_eq_error hfactor.ne' h
        exact .overflow name

theorem fault_of_readNormal (hpos : Positive vocabulary)
    (h : vocabulary.readNormal source text = .error e) : ReadingFault vocabulary source e := by
  rw [readNormal] at h
  split at h
  · obtain rfl := Except.error.inj h
    exact .unknown
  · split at h
    · cases h
    · split at h
      · obtain rfl := Except.error.inj h
        exact .divisions
      · split at h
        · exact hpos.fault_of_readQuotient h
        · exact hpos.fault_of_readTerm h

/-- **Reading fails with an error of the text only.** -/
theorem fault_of_readUnit (hpos : Positive vocabulary) {text : String}
    (h : vocabulary.readUnit text = .error e) : ReadingFault vocabulary text e := by
  rw [readUnit, readChars, String.ofList_toList] at h
  exact hpos.fault_of_readNormal h

end Positive

end Vocabulary

/-! ### Registries -/

namespace Registry

variable {definitions : List Definition} {aliases : NameMap String} {r : Registry}

/-- Every unit of a registry has a positive factor. -/
theorem factor_pos_of_supplies (h : build definitions aliases = .ok r) {u : UnitOfMeasure}
    (hu : r.Supplies u) : 0 < u.factor :=
  forall_supplies h readingInvariant_factor_pos
    (fun _ hd => (wellNamed_of_build h).factor_pos hd) hu

theorem positive_vocabulary (h : build definitions aliases = .ok r) :
    r.vocabulary.Positive :=
  fun key _ hu => factor_pos_of_supplies h (.inr ⟨key, hu⟩)

/-- In a registry, the unit with an offset that an error shows is written without the least
exponent. -/
theorem hasLeast_of_isAffine (h : build definitions aliases = .ok r) {u : UnitOfMeasure}
    (hu : r.Supplies u) (haffine : u.isAffine = true) : u.name.hasLeast = false := by
  rcases known_of_supplies h hu with ⟨d, -, rfl⟩ | hcomposed
  · exact Monomial.hasLeast_atom d.name
  · -- composed units have no offset
    rw [UnitOfMeasure.isAffine_eq_false_iff.2 hcomposed.offset] at haffine
    cases haffine

/-- **A text stands for a unit with a positive factor, or it is at fault.**  The error is one of
four: a unit that is not known or a second bar, which show the text as it was given, a unit with
an offset inside an expression, which is given too, or an exponent that does not fit. -/
theorem readUnit_outcome (h : build definitions aliases = .ok r) (text : String) :
    (∃ u, r.readUnit text = .ok u ∧ 0 < u.factor) ∨
      ∃ e, r.readUnit text = .error e ∧ ReadingFault r.vocabulary text e ∧
        e.code ∈ ["INVALID_UNIT", "MULTIPLE_DIVISION", "COMPOSITION", "EXPONENT_OVERFLOW"] := by
  cases hread : r.readUnit text with
  | ok u => exact .inl ⟨u, rfl, factor_pos_of_supplies h (.inl ⟨text, hread⟩)⟩
  | error e =>
    have hfault : ReadingFault r.vocabulary text e :=
      (positive_vocabulary h).fault_of_readUnit hread
    exact .inr ⟨e, rfl, hfault, hfault.code_mem.1⟩

/-- With metres and degrees Celsius, `m per °C` is at fault for the degrees, and the error shows
the text as it was given. -/
theorem readUnit_outcome_celsius :
    let metre : Definition := ⟨"metre", ["m"], [], 1, none, .base "length", .none⟩
    let celsius : Definition :=
      ⟨"celsius", ["\u00b0C"], [], 1, some (mkRat 27315 100), .temperature, .none⟩
    ∃ r e, build [metre, celsius] .empty = .ok r ∧ r.readUnit "m per \u00b0C" = .error e ∧
      e = .composition "celsius" "m per \u00b0C" ∧
        ReadingFault r.vocabulary "m per \u00b0C" e := by
  intro metre celsius
  have hread : (build [metre, celsius] .empty >>= fun r =>
      .ok (r.readUnit "m per \u00b0C")) =
        .ok (.error (.composition "celsius" "m per \u00b0C")) := by decide +kernel
  obtain ⟨r, hr, herror⟩ := Except.bind_eq_ok_iff.1 hread
  have herror := Except.ok.inj herror
  rcases readUnit_outcome hr "m per \u00b0C" with ⟨u, hu, -⟩ | ⟨e, he, hfault, -⟩
  · rw [herror] at hu
    cases hu
  · have hcause : e = .composition "celsius" "m per \u00b0C" :=
      Except.error.inj (he.symm.trans herror)
    exact ⟨r, e, hr, he, hcause, hfault⟩

end Registry

end ExactUnits
