/-!
# Exact numbers

A number is a rational in lowest terms with a positive denominator.  Addition,
subtraction and multiplication are those of the rationals; the operations that
can fail say why.

## Main definitions

* `Number` — the exact rationals.
* `NumberError` — why a number could not be read or computed.
* `Number.divide`, `Number.reciprocal` — division, refused at zero.
* `Number.power` — integer powers, refused beyond an exponent of 4096.
* `Number.scaled base m e` — the number `m * base ^ e`.
* `Number.text` — the written form: `n`, or `n/d` in lowest terms.
-/

namespace ExactUnits

/-- Numbers are exact rationals, kept in lowest terms. -/
abbrev Number := Rat

/-- Why a number could not be read or computed. -/
inductive NumberError where
  /-- The text, trimmed, is not written like a number. -/
  | malformed (text : String)
  /-- A division by zero, or a negative power of zero. -/
  | divisionByZero
  /-- An exponent beyond the limit of the operation. -/
  | overflow
  deriving DecidableEq, Repr

/-- The message of a number error. -/
def NumberError.message : NumberError → String
  | .malformed text => s!"Invalid number format: {text}"
  | .divisionByZero => "Division by zero"
  | .overflow => "Overflow: result too large"

namespace Number

/-! ### Arithmetic that can fail -/

/-- The quotient, refused when the divisor is zero. -/
def divide (x y : Number) : Except NumberError Number :=
  if y = 0 then .error .divisionByZero else .ok (x / y)

/-- One over the number, refused at zero. -/
def reciprocal (x : Number) : Except NumberError Number := divide 1 x

/-- The largest exponent, in either direction, of `Number.power`. -/
def powerLimit : Nat := 4096

/-- An integer power.  The limit on the exponent comes first, so even a power of
zero or one overflows beyond it. -/
def power (x : Number) (exponent : Int) : Except NumberError Number :=
  if powerLimit < exponent.natAbs then .error .overflow
  else if exponent < 0 then reciprocal (Rat.pow x exponent.natAbs)
  else .ok (Rat.pow x exponent.natAbs)

theorem divide_zero (x : Number) : divide x 0 = .error .divisionByZero := by simp [divide]

theorem divide_of_ne {x y : Number} (h : y ≠ 0) : divide x y = .ok (x / y) := by simp [divide, h]

/-! ### Scaling by a power of a base -/

/-- The number `m * base ^ e`. -/
def scaled (base : Nat) (m e : Int) : Number :=
  if 0 ≤ e then ((m * Nat.pow base e.toNat : Int) : Rat) else mkRat m (Nat.pow base (-e).toNat)

/-! ### Order -/

/-- The smaller of two numbers, the first of two equal ones. -/
def least (x y : Number) : Number := if x ≤ y then x else y

/-- The larger of two numbers, the second of two equal ones. -/
def greatest (x y : Number) : Number := if x ≤ y then y else x

/-- The distance from zero. -/
def magnitude (x : Number) : Number := if x < 0 then -x else x

/-! ### Integers among the numbers -/

/-- Whether the number is an integer. -/
def isInteger (x : Number) : Bool := x.den == 1

/-- A signed 64-bit integer, from -2 ^ 63 up to 2 ^ 63 - 1. -/
def FitsInt64 (n : Int) : Prop := -9223372036854775808 ≤ n ∧ n ≤ 9223372036854775807

instance (n : Int) : Decidable (FitsInt64 n) := inferInstanceAs (Decidable (_ ∧ _))

/-- The number as a signed 64-bit integer, if it is one. -/
def toInt64? (x : Number) : Option Int64 :=
  if x.isInteger ∧ FitsInt64 x.num then some (Int64.ofInt x.num) else none

/-! ### The written form -/

/-- The decimal digits of a natural number, without leading zeros. -/
def natText (n : Nat) : List Char := Nat.toDigits 10 n

/-- An integer: its digits behind a minus sign if it is negative. -/
def intText (n : Int) : List Char := if n < 0 then '-' :: natText n.natAbs else natText n.natAbs

/-- An integer is written `n`, any other number `n/d` in lowest terms. -/
def text (x : Number) : List Char :=
  if x.isInteger then intText x.num else intText x.num ++ '/' :: natText x.den

/-- The written form as a string. -/
def toText (x : Number) : String := String.ofList (text x)

end Number

end ExactUnits
