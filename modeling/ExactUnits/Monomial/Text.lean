import ExactUnits.Failure
import ExactUnits.Monomial.Basic
import ExactUnits.Number.Basic

/-!
# Writing monomials

The factors with a positive exponent come first, joined by `*`; behind a bar
follow the factors with a negative exponent, written with the exponent's
magnitude.  An exponent one is left out.  Without a positive exponent a `1`
stands in front of the bar, and the empty product has a text of its own.

The least exponent of 32 bits has no magnitude.  A build with overflow checks
panics instead of writing it, and a build without them writes it as it is.

## Main definitions

* `Monomial.powerText` — one factor, as in `time^2`.
* `Monomial.text` — the whole monomial, as in `length*mass/time^2`.
* `Monomial.hasLeast` — whether the least exponent occurs.
* `Failure.showing` — the failure with an error in which monomials are written.
-/

namespace ExactUnits

namespace Monomial

/-- One factor, with its exponent unless that is one. -/
def powerText (name : String) (n : Int) : List Char :=
  if n = 1 then name.toList else name.toList ++ '^' :: Number.intText n

/-- Factors joined by `*`. -/
def productText (factors : List (List Char)) : List Char := ['*'].intercalate factors

/-- The factors with a positive exponent, written. -/
def numeratorTexts (m : Monomial) : List (List Char) :=
  (m.factors.filter fun (_, e) => 0 < e.toInt).map fun (name, e) => powerText name e.toInt

/-- The factors with a negative exponent, written with its magnitude.  In 32 bits the least
exponent is its own negation. -/
def denominatorTexts (m : Monomial) : List (List Char) :=
  (m.factors.filter fun (_, e) => e.toInt < 0).map fun (name, e) => powerText name (-e).toInt

/-- The text of a monomial, as a build without overflow checks writes it; `empty` stands for the
empty product. -/
def text (empty : List Char) (m : Monomial) : List Char :=
  match m.numeratorTexts, m.denominatorTexts with
  | [], [] => empty
  | above, [] => productText above
  | [], below => '1' :: '/' :: productText below
  | above, below => productText above ++ '/' :: productText below

/-- Whether the least exponent occurs, which a build with overflow checks does not write. -/
def hasLeast (m : Monomial) : Bool := m.factors.any fun (_, e) => e == Int32.minValue

end Monomial

/-- The failure of a call that returns an error with the texts of monomials in it.  They are
written before the error is returned. -/
def Failure.showing {ε : Type} (shown : List Monomial) (e : ε) : Failure ε :=
  if shown.any Monomial.hasLeast then .panic (some e) else .returned e

theorem Failure.showing_eq_returned_iff {ε : Type} {shown : List Monomial} {e e' : ε} :
    showing shown e = returned e' ↔ e = e' ∧ ∀ m ∈ shown, m.hasLeast = false := by
  unfold showing
  split
  · next hleast =>
    obtain ⟨m, hm, hleast⟩ := List.any_eq_true.1 hleast
    refine iff_of_false (fun h => by cases h) fun h => ?_
    rw [h.2 m hm] at hleast
    cases hleast
  · next hnone => simpa using fun _ => hnone

end ExactUnits
