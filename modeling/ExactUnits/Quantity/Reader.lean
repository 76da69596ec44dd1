import ExactUnits.Quantity.Basic

/-!
# Reading quantities

A quantity is a number and a unit, as in `5 km/h` or `100kg`.  If the first word
is a number, it is the value.  Otherwise the value is the longest front of the
text that can belong to a number: a bar belongs to it only in front of a digit,
so `5/s` is five per second, and an exponent mark only in front of an exponent,
so `2eV` are two electronvolts.

## Main definitions

* `Quantity.splitNumber` — the front of a text that can belong to a number.
* `Vocabulary.readQuantity` — the quantity that a text spells.
-/

namespace ExactUnits

open Text

namespace Quantity

/-! ### The number in front -/

/-- A plus or a minus sign. -/
def isSign (c : Char) : Bool := c == '+' || c == '-'

/-- Whether a text starts with a digit. -/
def startsWithDigit (text : List Char) : Bool := text.head?.any Char.isDigit

/-- Whether a text starts with an exponent: a digit, perhaps behind a sign. -/
def startsWithExponent (text : List Char) : Bool :=
  startsWithDigit text || (text.head?.any isSign && startsWithDigit text.tail)

/-- Whether a number can go on with the character `c` in front of `rest`.  A sign
stands at the start and behind an exponent mark only, and a bar or an exponent
mark behind a digit only. -/
def extendsNumber (signAllowed digitSeen : Bool) (c : Char) (rest : List Char) : Bool :=
  c.isDigit || (isSign c && signAllowed) || c == '.' ||
    (c == '/' && digitSeen && startsWithDigit rest) ||
    (Literal.isExponentMark c && digitSeen && startsWithExponent rest)

/-- Split a text behind the characters that can belong to a number. -/
def splitNumberFrom (signAllowed digitSeen : Bool) : List Char → List Char × List Char
  | [] => ([], [])
  | c :: rest =>
    if extendsNumber signAllowed digitSeen c rest then
      let (number, unit) := splitNumberFrom (Literal.isExponentMark c) (digitSeen || c.isDigit) rest
      (c :: number, unit)
    else ([], c :: rest)

/-- Split a text into the front that can belong to a number and the rest. -/
def splitNumber (text : List Char) : List Char × List Char := splitNumberFrom true false text

/-- Split a text without outer blanks into a number and a unit: at the first blank
if a number is in front of it, else behind all that can belong to a number.  The
first word is read to find out. -/
def splitUnit (text : List Char) : Except (Failure NumberError) (List Char × List Char) :=
  match cutAt isBlank text with
  | (number, some unit) =>
    match Number.readChars number with
    | .ok _ => .ok (number, unit)
    | .error (.returned _) => .ok (splitNumber text)
    | .error (.panic unchecked) => .error (.panic unchecked)
  | (_, none) => .ok (splitNumber text)

end Quantity

namespace Vocabulary

/-! ### The reader -/

/-- Read the unit behind a number, without outer blanks.  No text at all is a bare
number, and a text that starts with a bar stands below a one. -/
def readUnitPart (vocabulary : Vocabulary) (text : List Char) : Except UnitError UnitOfMeasure :=
  match text with
  | [] => .ok .one
  | '/' :: _ => vocabulary.readChars ('1' :: text)
  | _ => vocabulary.readChars text

/-- Read a quantity. -/
def readQuantity (vocabulary : Vocabulary) (text : String) :
    Except (Failure UnitError) Quantity := do
  let (number, unit) ← (Quantity.splitUnit (trim text.toList)).mapError (Failure.map .number)
  let value ← (Number.readChars number).mapError (Failure.map .number)
  let unit ← (vocabulary.readUnitPart (trim unit)).mapError .returned
  return ⟨value, unit⟩

end Vocabulary

end ExactUnits
