import ExactUnits.Proofs.Conversion.Compatible
import ExactUnits.Proofs.Monomial.Distinct

/-!
# What the texts of dimensions and units show

Different dimensions have different texts, and so have different names of units, if no name is
taken for something else.  A conversion that finds different dimensions therefore shows two texts
that differ.

## Main results

* `convertValue_eq_error_cases` — what can go wrong between units of one dimension.
* `convertValue_eq_incompatible_iff` — what an error about dimensions says.
* `eq_of_toText` — **dimensions and names of units are determined by their texts, and no error
  about dimensions shows the same text twice.**
-/

namespace ExactUnits

open Monomial

section Conversion

variable {v : Number} {u w : UnitOfMeasure} {e : Failure UnitError}

/-! ### Errors of conversions -/

theorem exists_of_fromBase_eq_error (h : (u.fromBase v).mapError Failure.returned = .error e) :
    ∃ cause, e = .returned (.number cause) := by
  obtain ⟨error, herror, rfl⟩ := Except.mapError_eq_error_iff.1 h
  obtain ⟨cause, -, rfl⟩ := Except.mapError_eq_error_iff.1 herror
  exact ⟨cause, rfl⟩

theorem exists_of_toKelvin_eq_error (h : toKelvin v u = .error e) :
    ∃ fault : Failure ScaleFault, e = fault.map .scale := by
  rcases Except.bind_eq_error_iff.1 h with h | ⟨scale, -, h⟩
  · obtain ⟨fault, -, rfl⟩ := Except.mapError_eq_error_iff.1 h
    exact ⟨fault, rfl⟩
  · cases h

theorem exists_of_fromKelvin_eq_error (h : fromKelvin v u = .error e) :
    (∃ fault : Failure ScaleFault, e = fault.map .scale) ∨
      ∃ cause, e = .returned (.number cause) := by
  rcases Except.bind_eq_error_iff.1 h with h | ⟨scale, -, h⟩
  · obtain ⟨fault, -, rfl⟩ := Except.mapError_eq_error_iff.1 h
    exact .inl ⟨fault, rfl⟩
  · exact .inr (exists_of_fromBase_eq_error h)

/-- Between units of one dimension, a scale may be missing or a factor be zero. -/
theorem convertValue_eq_error_cases (hdimension : u.dimension = w.dimension)
    (h : convertValue v u w = .error e) :
    (∃ fault : Failure ScaleFault, e = fault.map .scale) ∨
      ∃ cause, e = .returned (.number cause) := by
  rw [convertValue_of_dimension_eq hdimension] at h
  split at h
  · rcases Except.bind_eq_error_iff.1 h with h | ⟨kelvin, -, h⟩
    · exact .inl (exists_of_toKelvin_eq_error h)
    · exact exists_of_fromKelvin_eq_error h
  · exact .inr (exists_of_fromBase_eq_error h)

/-- **An error about dimensions shows those of the two units, which differ**, and is returned if
the least exponent is in neither. -/
theorem convertValue_eq_incompatible_iff {shown shown' : String} :
    convertValue v u w = .error (.returned (.incompatible shown shown')) ↔
      u.dimension ≠ w.dimension ∧
        (shown = u.dimension.toText ∧ shown' = w.dimension.toText) ∧
        u.dimension.hasLeast = false ∧ w.dimension.hasLeast = false := by
  by_cases hdimension : u.dimension = w.dimension
  · refine iff_of_false (fun h => ?_) fun h => h.1 hdimension
    rcases convertValue_eq_error_cases hdimension h with ⟨fault, he⟩ | ⟨_, he⟩
    · cases fault <;> cases he
    · cases he
  · rw [convertValue_of_dimension_ne hdimension, Except.error.injEq,
      Failure.showing_eq_returned_iff, UnitError.incompatible.injEq]
    constructor
    · rintro ⟨⟨rfl, rfl⟩, hleast⟩
      exact ⟨hdimension, ⟨rfl, rfl⟩, by simpa using hleast⟩
    · rintro ⟨-, ⟨rfl, rfl⟩, hleast⟩
      exact ⟨⟨rfl, rfl⟩, by simpa using hleast⟩

end Conversion

/-! ### Texts -/

/-- The texts that are not names of base dimensions. -/
def Dimension.reservedNames : List String := ["1", "dimensionless"]

/-- The text that is not a name of a unit. -/
def UnitName.reservedNames : List String := ["1"]

/-- **Texts tell dimensions and names of units apart.**  Let the names in them have no stars, bars
and carets, and not be the texts `1` and, for dimensions, `dimensionless`, and let no exponent be
the least one.  Then two dimensions, or two names of units, with the same text are the same; so an
error about dimensions shows two texts that differ. -/
theorem eq_of_toText :
    (∀ a b : Dimension, Legible Dimension.reservedNames a → Legible Dimension.reservedNames b →
      a.toText = b.toText → a = b) ∧
    (∀ a b : UnitName, Legible UnitName.reservedNames a → Legible UnitName.reservedNames b →
      a.toText = b.toText → a = b) ∧
    ∀ (v : Number) (u w : UnitOfMeasure) (shown shown' : String),
      convertValue v u w = .error (.returned (.incompatible shown shown')) →
      Legible Dimension.reservedNames u.dimension → Legible Dimension.reservedNames w.dimension →
      shown ≠ shown' := by
  have hdimension : ∀ a b : Dimension, Legible Dimension.reservedNames a →
      Legible Dimension.reservedNames b → a.toText = b.toText → a = b :=
    fun a b ha hb h => ha.eq_of_text hb (by decide) (by decide) (by decide)
      (String.ofList_injective h)
  refine ⟨hdimension, ?_, ?_⟩
  · intro a b ha hb h
    have htext : text "1".toList a = text "1".toList b := String.ofList_injective h
    exact ha.eq_of_text hb (by decide) (by decide) (by decide) htext
  · intro v u w shown shown' h hu hw htext
    obtain ⟨hne, ⟨rfl, rfl⟩, -⟩ := convertValue_eq_incompatible_iff.1 h
    exact hne (hdimension u.dimension w.dimension hu hw htext)

/-- The dimension of forces is the same from exponents in any order, and so is the name of their
unit; and a force is not converted to a length, with two texts in the error. -/
theorem eq_of_toText_force :
    let force : Dimension := .ofList [("length", 1), ("mass", 1), ("time", -2)]
    let reordered : Dimension := .ofList [("time", -2), ("mass", 1), ("length", 1)]
    let newton : UnitOfMeasure :=
      ⟨.ofList [("kilogram", 1), ("metre", 1), ("second", -2)], 1, force, none⟩
    let metre : UnitOfMeasure := .named "metre" 1 (.base "length") none
    (force.toText = "length*mass/time^2" ∧ reordered.toText = "length*mass/time^2" ∧
        force = reordered) ∧
      (newton.name.toText = "kilogram*metre/second^2" ∧
        newton.name = .ofList [("second", -2), ("metre", 1), ("kilogram", 1)]) ∧
      convertValue 1 newton metre =
        .error (.returned (.incompatible "length*mass/time^2" "length")) ∧
        "length*mass/time^2" ≠ "length" := by
  intro force reordered newton metre
  obtain ⟨hdimension, hname, herror⟩ := eq_of_toText
  have hconvert : convertValue 1 newton metre =
      .error (.returned (.incompatible "length*mass/time^2" "length")) := by
    decide +kernel
  refine ⟨⟨by decide +kernel, by decide +kernel, ?_⟩, ⟨by decide +kernel, ?_⟩, hconvert, ?_⟩
  · exact hdimension _ _ (by decide +kernel) (by decide +kernel) (by decide +kernel)
  · exact hname _ _ (by decide +kernel) (by decide +kernel) (by decide +kernel)
  · exact herror 1 newton metre _ _ hconvert (by decide +kernel) (by decide +kernel)

end ExactUnits
