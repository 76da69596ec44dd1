/-!
# Blanks, trimming and words

A text is handled as its list of characters.  Which characters are blank is the
Unicode property White_Space: 25 code points, so the no-break space U+00A0 and
the next-line control U+0085 are blank, while the zero-width space U+200B and
the byte order mark U+FEFF are not.

## Main definitions

* `isBlank` — the characters of White_Space.
* `trim` — a text without its leading and trailing blanks.
* `words` — the maximal runs of characters that are not blank, in order.
* `joinWords` — words written with one space between neighbours.
-/

namespace ExactUnits.Text

/-! ### The class -/

/-- The ranges of code points of the property White_Space, both ends included. -/
def blankRanges : List (Nat × Nat) :=
  [(0x9, 0xD), (0x20, 0x20), (0x85, 0x85), (0xA0, 0xA0), (0x1680, 0x1680), (0x2000, 0x200A),
    (0x2028, 0x2029), (0x202F, 0x202F), (0x205F, 0x205F), (0x3000, 0x3000)]

/-- A blank is a character of the property White_Space. -/
def isBlank (c : Char) : Bool := blankRanges.any fun (first, last) => first ≤ c.toNat && c.toNat ≤ last

@[simp] theorem isBlank_space : isBlank ' ' = true := by decide

/-! ### Trimming -/

/-- The text without its leading blanks. -/
def trimLeft (text : List Char) : List Char := text.dropWhile isBlank

/-- The text without its trailing blanks. -/
def trimRight (text : List Char) : List Char := (text.reverse.dropWhile isBlank).reverse

/-- The text without its leading and trailing blanks. -/
def trim (text : List Char) : List Char := trimRight (trimLeft text)

@[simp] theorem trim_nil : trim [] = [] := rfl

/-- A text is all blank if nothing is left of it. -/
def isAllBlank (text : List Char) : Bool := text.all isBlank

/-! ### Words -/

/-- The maximal runs of characters that are not blank, in order. -/
def words (text : List Char) : List (List Char) := (text.splitOnP isBlank).filter (!·.isEmpty)

@[simp] theorem words_nil : words [] = [] := rfl

/-- Words written with one space between neighbours. -/
def joinWords (parts : List (List Char)) : List Char := [' '].intercalate parts

end ExactUnits.Text
