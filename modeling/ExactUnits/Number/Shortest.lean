import ExactUnits.Number.Decimal

/-!
# The shortest text of a binary floating-point number

A finite double is `m * 2 ^ q`.  Its text is the decimal with the fewest digits
that rounds to it, the one nearest to it among these, and a tie between two
neighbours goes up.  The fewest digits are those of a multiple of the coarsest
power of ten that has a multiple in the interval of the rationals that round to
the number, so the search goes from coarse to fine.  The text is positional,
without an exponent and without a point if the number is an integer.

## Main definitions

* `Rounding` — a number with the interval of the rationals that round to it.
* `Rounding.ofFields` — that of a finite double other than zero.
* `Rounding.shortest` — the digits and the power of ten of the shortest decimal.
* `floatText` — the text of any double.
-/

namespace ExactUnits

/-- A positive number of a floating-point format with the rationals that round
to it. -/
structure Rounding where
  /-- The number itself. -/
  center : Number
  /-- The lower end of the rationals that round to it. -/
  lower : Number
  /-- The upper end of the rationals that round to it. -/
  upper : Number
  /-- Whether the ends round to it too, as they do if its significand is even. -/
  closed : Bool

namespace Rounding

/-! ### The interval of a double -/

/-- The interval of `m * 2 ^ q`.  The gap below a power of two that is not the
least one of its format is half the gap above. -/
def ofSignificand (m : Nat) (q : Int) (halfGapBelow : Bool) : Rounding where
  center := Number.scaled 2 m q
  lower :=
    if halfGapBelow then Number.scaled 2 (4 * m - 1) (q - 2)
    else Number.scaled 2 (2 * m - 1) (q - 1)
  upper := Number.scaled 2 (2 * m + 1) (q - 1)
  closed := m % 2 == 0

/-- The interval of the double with a biased exponent below 2047 and the given
fraction field of 52 bits. -/
def ofFields (biased fraction : Nat) : Rounding :=
  if biased = 0 then ofSignificand fraction (-1074) false
  else ofSignificand (fraction + (1 <<< 52)) (biased - 1075) (fraction == 0 && 1 < biased)

/-- Whether a rational rounds to the number. -/
def accepts (r : Rounding) (x : Number) : Bool :=
  if r.closed then r.lower ≤ x && x ≤ r.upper else r.lower < x && x < r.upper

/-! ### The shortest decimal -/

/-- The multiple of `10 ^ k` nearest to the number, a tie going up, among its two
neighbours of this kind that round to it. -/
def nearestMultiple? (r : Rounding) (k : Int) : Option Nat :=
  let unit := Number.scaled 10 1 k
  let below := (r.center / unit).floor.toNat
  let low := (below : Number) * unit
  let high := low + unit
  match r.accepts low, r.accepts high with
  | true, true => some (if high - r.center ≤ r.center - low then below + 1 else below)
  | true, false => some below
  | false, true => some (below + 1)
  | false, false => none

/-- The powers of ten to try, from `10 ^ 309`, which is beyond every double, down
to `10 ^ -1074`, of which every double is a multiple. -/
def scales : List Int := (List.range 1384).map fun (i : Nat) => (309 : Int) - i

/-- The digits and the power of ten of the shortest decimal. -/
def shortest (r : Rounding) : Nat × Int :=
  (scales.findSome? fun k => (r.nearestMultiple? k).map fun digits => (digits, k)).getD (0, 0)

end Rounding

/-! ### The text -/

/-- The number `n * 10 ^ k` without an exponent. -/
def positional (n : Nat) (k : Int) : List Char :=
  if 0 ≤ k then Number.natText n ++ List.replicate k.toNat '0'
  else Number.withPoint ((Number.natText n).leftpad ((-k).toNat + 1) '0') (-k).toNat

/-- The text of a double without its sign, from its two fields. -/
def magnitudeText (biased fraction : Nat) : List Char :=
  if biased = 2047 then (if fraction = 0 then ['i', 'n', 'f'] else ['N', 'a', 'N'])
  else if biased = 0 ∧ fraction = 0 then ['0']
  else
    let (digits, k) := (Rounding.ofFields biased fraction).shortest
    positional digits k

/-- The text of a double; a negative zero keeps its sign. -/
def floatText (x : Float) : List Char :=
  let bits := x.toBits.toNat
  let body := magnitudeText ((bits >>> 52) % (1 <<< 11)) (bits % (1 <<< 52))
  if bits >>> 63 = 1 ∧ !x.isNaN then '-' :: body else body

end ExactUnits
