import ExactUnits.Number.Basic

/-!
# Numbers with a fixed number of decimal places

The number is rounded to the nearest multiple of `10 ^ -places`, halves away
from zero, in integer arithmetic.  There is exactly one digit in front of the
point at least, and a minus sign only if some digit is not zero.

## Main definitions

* `roundDiv n d` — the integer nearest to `n / d`, halves upward.
* `Number.rounded x places` — how many units of the last place the magnitude of
  `x` rounds to.
* `Number.fixed x places` — the text.
-/

namespace ExactUnits

/-- The integer nearest to `n / d`, a half going up. -/
def roundDiv (n d : Nat) : Nat := n / d + if d ≤ 2 * (n % d) then 1 else 0

namespace Number

/-- How many units of the last decimal place the magnitude of `x` rounds to. -/
def rounded (x : Number) (places : Nat) : Nat := roundDiv (x.num.natAbs * Nat.pow 10 places) x.den

/-- Digits with a point in front of the last `places` ones; no point without
places. -/
def withPoint (digits : List Char) (places : Nat) : List Char :=
  if places = 0 then digits
  else digits.take (digits.length - places) ++ '.' :: digits.drop (digits.length - places)

/-- The text of `x` with `places` digits behind the point. -/
def fixed (x : Number) (places : Nat) : List Char :=
  let units := rounded x places
  let body := withPoint ((natText units).leftpad (places + 1) '0') places
  if x < 0 ∧ units ≠ 0 then '-' :: body else body

end Number

end ExactUnits
