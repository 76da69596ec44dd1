import ExactUnits.Normal
import ExactUnits.Number.Literal
import ExactUnits.UnitOfMeasure

/-!
# Reading unit expressions

A vocabulary says which unit a normal text stands for.  Against a vocabulary an
expression such as `kg*m/s^2` is read: the whole text is looked up first, then
it is cut at its only bar into products and at `*` into terms, and a term that
is not known itself is cut into a known unit and an exponent.  A unit with an
offset stands alone: it takes part in no product and has no other power than
the first.  In a registry such a unit is a base unit, so that the error that shows
it never has to write the least exponent.

## Main definitions

* `Vocabulary` — the units that normal texts stand for.
* `Vocabulary.splitExponent?` — a term cut into base and exponent.
* `Vocabulary.readTerm`, `Vocabulary.readProduct`, `Vocabulary.readUnit` — the reader.
* `Vocabulary.readConversion` — two units around an arrow, `to` or `in`.
-/

namespace ExactUnits

open Text

/-- Which unit a normal text stands for. -/
abbrev Vocabulary := String → Option UnitOfMeasure

namespace Vocabulary

/-! ### Exponents of terms -/

/-- The largest exponent, in either direction, of a term. -/
def termExponentLimit : Nat := 1000

/-- Split a sign off the end of a text; `true` is a minus sign. -/
def splitTrailingSign (text : List Char) : List Char × Bool :=
  match text.getLast? with
  | some '-' => (text.dropLast, true)
  | some '+' => (text.dropLast, false)
  | _ => (text, false)

/-- Drop a caret from the end of a text. -/
def dropTrailingCaret (text : List Char) : List Char :=
  if text.getLast? = some '^' then text.dropLast else text

/-- The longest run of ASCII digits at the end of a text. -/
def trailingDigits (text : List Char) : List Char := (text.reverse.takeWhile Char.isDigit).reverse

/-- A text without the digits at its end. -/
def withoutTrailingDigits (text : List Char) : List Char :=
  (text.reverse.dropWhile Char.isDigit).reverse

/-- Cut a term into its base and its exponent: digits at the end, a sign in front
of them and a caret in front of that.  Without digits the exponent is one.  A
term without a base, the exponent zero and exponents beyond the limit are
refused. -/
def splitExponent? (term : List Char) : Option (List Char × Int) :=
  let digits := trailingDigits term
  if digits.isEmpty then some (term, 1)
  else
    let (head, negative) := splitTrailingSign (withoutTrailingDigits term)
    let base := dropTrailingCaret head
    let exponent := Literal.signed negative (Literal.digitsValue digits)
    if base.isEmpty ∨ exponent = 0 ∨ termExponentLimit < exponent.natAbs then none
    else some (base, exponent)

/-! ### Terms and products -/

/-- Look up a list of characters. -/
def find? (vocabulary : Vocabulary) (text : List Char) : Option UnitOfMeasure :=
  vocabulary (String.ofList text)

/-- Read a term.  Errors show `source`, the whole expression. -/
def readTerm (vocabulary : Vocabulary) (source : String) (term : List Char) :
    Except UnitError UnitOfMeasure :=
  match vocabulary.find? term with
  | some unit => .ok unit
  | none =>
    match splitExponent? term with
    | none => .error (.unknown source)
    | some (base, exponent) =>
      match vocabulary.find? base with
      | none => .error (.unknown source)
      | some unit =>
        if exponent = 1 then .ok unit
        else if unit.isAffine then .error (.composition unit.toText source)
        else unit.pow exponent

/-- Multiply a product by its next term.  The term `1` changes nothing, and a
missing term is an error. -/
def mulTerm (vocabulary : Vocabulary) (source : String) (product : UnitOfMeasure)
    (term : List Char) : Except UnitError UnitOfMeasure :=
  if term.isEmpty then .error (.unknown source)
  else if term = ['1'] then .ok product
  else do
    let unit ← vocabulary.readTerm source term
    if unit.isAffine then .error (.composition unit.toText source)
    else product.mul unit

/-- Read terms joined by `*`. -/
def readProduct (vocabulary : Vocabulary) (source : String) (group : List Char) :
    Except UnitError UnitOfMeasure :=
  (group.splitOn '*').foldlM (vocabulary.mulTerm source) .one

/-! ### Expressions -/

/-- Read a quotient of products, or a product without a bar. -/
def readQuotient (vocabulary : Vocabulary) (source : String) (text : List Char) :
    Except UnitError UnitOfMeasure := do
  let (above, bar) := cutAt (· == '/') text
  let numerator ← vocabulary.readProduct source above
  let denominator ← match bar with
    | some below => vocabulary.readProduct source below
    | none => .ok .one
  numerator.div denominator

/-- Read a normal text.  What the vocabulary knows as a whole is not analysed. -/
def readNormal (vocabulary : Vocabulary) (source : String) (text : List Char) :
    Except UnitError UnitOfMeasure :=
  if text.isEmpty then .error (.unknown source)
  else
    match vocabulary.find? text with
    | some unit => .ok unit
    | none =>
      if 1 < text.count '/' then .error (.divisions source)
      else if '*' ∈ text ∨ '/' ∈ text then vocabulary.readQuotient source text
      else vocabulary.readTerm source text

/-- Read a unit from a list of characters. -/
def readChars (vocabulary : Vocabulary) (text : List Char) : Except UnitError UnitOfMeasure :=
  vocabulary.readNormal (String.ofList text) (normalChars text)

/-- Read a unit. -/
def readUnit (vocabulary : Vocabulary) (text : String) : Except UnitError UnitOfMeasure :=
  vocabulary.readChars text.toList

/-! ### Conversions -/

/-- What can stand between the two units of a conversion, in the order in which it
is looked for. -/
def conversionMarks : List String := ["->", "\u2192", " to ", " in "]

/-- Read the two units of a conversion, cut at the first mark that occurs at all. -/
def readConversion (vocabulary : Vocabulary) (text : String) :
    Except UnitError (UnitOfMeasure × UnitOfMeasure) :=
  match conversionMarks.findSome? fun mark => cut? mark.toList text.toList with
  | none => .error (.unknown text)
  | some (source, target) => do
    let u ← vocabulary.readChars source
    let v ← vocabulary.readChars target
    return (u, v)

end Vocabulary

end ExactUnits
