/-!
# Calls that give no value

A call that has no value to give returns an error, as a rule.  At the end of the range of a machine
integer it may not come to that: the least integer of a width has no magnitude of the same width.
A build with overflow checks panics there.  A build without them goes on with the integer that is
left, and returns an error, or panics later on.

## Main definitions

* `Failure` — how a call ends that gives no value.
* `Failure.map` — the same ending with another error.
-/

namespace ExactUnits

/-- How a call ends that gives no value. -/
inductive Failure (ε : Type) where
  /-- It returns an error. -/
  | returned (e : ε)
  /-- An integer leaves its range.  With overflow checks the call panics; without them it returns
  the error, or panics all the same if there is none. -/
  | panic (unchecked : Option ε)
  deriving DecidableEq

/-- The same ending with another error. -/
def Failure.map {ε δ : Type} (f : ε → δ) : Failure ε → Failure δ
  | returned e => returned (f e)
  | panic unchecked => panic (unchecked.map f)

namespace Failure

variable {ε δ : Type} {f : ε → δ} {failure : Failure ε}

theorem map_eq_returned_iff {e : δ} :
    failure.map f = .returned e ↔ ∃ cause, failure = .returned cause ∧ f cause = e := by
  cases failure <;> simp [map]

theorem map_eq_panic_iff {unchecked : Option δ} :
    failure.map f = .panic unchecked ↔
      ∃ inner, failure = .panic inner ∧ inner.map f = unchecked := by
  cases failure <;> simp [map]

end Failure

end ExactUnits
