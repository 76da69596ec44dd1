import ExactUnits.Text.Blank
import ExactUnits.Text.Search

/-!
# Normal texts

Unit texts are looked up in a normal spelling.  Runs of blanks become one space
and outer blanks are dropped; then a list of replacements is carried out in
order: superscripts become plain digits and signs, the multiplication signs
become `*`, the word `per` a bar, spaces around operators go, the Greek mu
becomes the micro sign, and the regional spellings of metre and litre are
unified.

## Main definitions

* `Spelling` — a pattern with its replacement, and the list `spellings`.
* `normalize` — the normal spelling of a text.
-/

namespace ExactUnits

open Text

/-- A pattern and what it is replaced with. -/
structure Spelling where
  /-- The text that is replaced. -/
  pattern : String
  /-- What stands in its place. -/
  replacement : String
  deriving DecidableEq, Repr

/-- The replacements of the normal spelling, in the order in which they are
carried out. -/
def spellings : List Spelling :=
  [⟨"\u2070", "0"⟩, ⟨"\u00b9", "1"⟩, ⟨"\u00b2", "2"⟩, ⟨"\u00b3", "3"⟩, ⟨"\u2074", "4"⟩,
    ⟨"\u2075", "5"⟩, ⟨"\u2076", "6"⟩, ⟨"\u2077", "7"⟩, ⟨"\u2078", "8"⟩, ⟨"\u2079", "9"⟩,
    ⟨"\u207a", "+"⟩, ⟨"\u207b", "-"⟩,
    ⟨"\u22c5", "*"⟩, ⟨"\u00b7", "*"⟩, ⟨"\u00d7", "*"⟩,
    ⟨" per ", "/"⟩,
    ⟨" *", "*"⟩, ⟨"* ", "*"⟩, ⟨" /", "/"⟩, ⟨"/ ", "/"⟩,
    ⟨"\u03bc", "\u00b5"⟩,
    ⟨"meter", "metre"⟩, ⟨"liter", "litre"⟩]

/-- Carry out one replacement. -/
def Spelling.apply (spelling : Spelling) (text : List Char) : List Char :=
  replaceAll spelling.pattern.toList spelling.replacement.toList text

/-- The normal spelling of a list of characters. -/
def normalChars (text : List Char) : List Char :=
  spellings.foldl (fun text spelling => spelling.apply text) (joinWords (words text))

/-- The normal spelling of a text. -/
def normalize (text : String) : String := String.ofList (normalChars text.toList)

end ExactUnits
