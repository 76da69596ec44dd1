import ExactUnits.Failure
import ExactUnits.Number.Basic
import ExactUnits.Text.Blank
import ExactUnits.Text.Search

/-!
# Reading numbers

A literal is an optional sign, ASCII digits with at most one point among them
and at least one digit in all, and an optional exponent: `e` or `E`, an optional
sign and ASCII digits whose value fits a signed 64-bit integer.  It stands for
exactly `± digits * 10 ^ (exponent - number of fraction digits)`.  A number is
written as a literal or as a fraction of two literals around a bar.  The least
exponent of 64 bits cannot be compared with a limit on magnitudes, and reading it
panics.

## Main definitions

* `Literal` — the parts of a literal, and `Literal.value`, the number it denotes.
* `Literal.ofText?` — the literal a text spells.
* `Literal.evaluate` — the number it denotes, if its exponent is within the limit.
* `Number.read` — the number a text spells, with the reason if there is none.
-/

namespace ExactUnits

open Text

/-- The parts of a number literal. -/
structure Literal where
  /-- Whether a minus sign stands in front. -/
  negative : Bool
  /-- The digits before the point. -/
  whole : List Char
  /-- The digits behind the point. -/
  fraction : List Char
  /-- The exponent of ten, zero where none is written. -/
  exponent : Int
  deriving DecidableEq, Repr

namespace Literal

/-! ### The number a literal denotes -/

/-- The value of a list of decimal digits. -/
def digitsValue (digits : List Char) : Nat := Nat.ofDigitChars 10 digits 0

/-- An amount with its sign. -/
def signed (negative : Bool) (amount : Nat) : Int := if negative then -amount else amount

/-- The signed integer that all digits of the literal spell. -/
def significand (literal : Literal) : Int :=
  signed literal.negative (digitsValue (literal.whole ++ literal.fraction))

/-- The number a literal denotes. -/
def value (literal : Literal) : Number :=
  Number.scaled 10 literal.significand (literal.exponent - literal.fraction.length)

/-! ### Reading a literal -/

/-- Split an optional sign off the front of a text; `true` is a minus sign. -/
def splitSign : List Char → Bool × List Char
  | '-' :: rest => (true, rest)
  | '+' :: rest => (false, rest)
  | rest => (false, rest)

/-- One or more ASCII digits. -/
def isDigits (text : List Char) : Bool := !text.isEmpty && text.all Char.isDigit

/-- Read a written exponent: an optional sign and digits that make up a signed
64-bit integer. -/
def readExponent? (text : List Char) : Option Int :=
  let (negative, digits) := splitSign text
  let exponent := signed negative (digitsValue digits)
  if isDigits digits ∧ Number.FitsInt64 exponent then some exponent else none

/-- The mark in front of an exponent. -/
def isExponentMark (c : Char) : Bool := c == 'e' || c == 'E'

/-- The literal that a text spells. -/
def ofText? (text : List Char) : Option Literal :=
  let (negative, body) := splitSign text
  let (mantissa, mark) := cutAt isExponentMark body
  let (whole, point) := cutAt (· == '.') mantissa
  let fraction := point.getD []
  if isDigits (whole ++ fraction) then
    match mark with
    | none => some { negative, whole, fraction, exponent := 0 }
    | some text => (readExponent? text).map fun exponent => { negative, whole, fraction, exponent }
  else none

/-! ### The limit on exponents -/

/-- The largest exponent, in either direction, of a literal that is evaluated. -/
def exponentLimit : Nat := 4096

/-- The least exponent that can be written. -/
def leastExponent : Int := -9223372036854775808

/-- The number a literal denotes, refused if its exponent is beyond the limit.  The magnitude of
the least exponent is out of range.  Without overflow checks it would pass the limit, and no
memory holds the power of ten that it asks for. -/
def evaluate (literal : Literal) : Except (Failure NumberError) Number :=
  if literal.exponent = leastExponent then .error (.panic none)
  else if exponentLimit < literal.exponent.natAbs then .error (.returned .overflow)
  else .ok literal.value

theorem evaluate_of_exponent_eq_zero {literal : Literal} (h : literal.exponent = 0) :
    literal.evaluate = .ok literal.value := by
  rw [evaluate, h, if_neg (by decide), if_neg (by decide)]

end Literal

namespace Number

/-- Read one side of a fraction, or a number without a bar.  An error shows
`source`, the whole text. -/
def readPart (source part : List Char) : Except (Failure NumberError) Number :=
  match Literal.ofText? part with
  | none => .error (.returned (.malformed (String.ofList source)))
  | some literal => literal.evaluate

/-- Read a number or a fraction from a text without outer blanks.  The sides of
the first bar are trimmed and read from left to right before they are divided. -/
def readTrimmed (text : List Char) : Except (Failure NumberError) Number :=
  match cutAt (· == '/') text with
  | (_, none) => readPart text text
  | (numerator, some denominator) => do
    let n ← readPart text (trim numerator)
    let d ← readPart text (trim denominator)
    (divide n d).mapError .returned

/-- Read a number; blanks around it do not matter. -/
def readChars (text : List Char) : Except (Failure NumberError) Number := readTrimmed (trim text)

/-- Read a number; blanks around it do not matter. -/
def read (text : String) : Except (Failure NumberError) Number := readChars text.toList

end Number

end ExactUnits
