import ExactUnits.Text.Blank
import ExactUnits.Text.Printable

/-!
# Texts shown in quotes

A message shows a text that was not accepted in double quotes, with everything
that could be misread written as an escape: the quote and the backslash behind a
backslash, tab, line feed, carriage return and NUL by their letter, and any other
character without a shape of its own by its code point, as in `\u{a0}`.

## Main definitions

* `escape` — how one character is written.
* `quote` — the text between quotes.
-/

namespace ExactUnits.Text

/-- A character by its code point in lower case hexadecimal digits. -/
def escapeCodePoint (c : Char) : List Char :=
  '\\' :: 'u' :: '{' :: Nat.toDigits 16 c.toNat ++ ['}']

/-- How a character is written between quotes. -/
def escape (c : Char) : List Char :=
  if c = '"' then ['\\', '"']
  else if c = '\\' then ['\\', '\\']
  else if c = '\t' then ['\\', 't']
  else if c = '\n' then ['\\', 'n']
  else if c = '\r' then ['\\', 'r']
  else if c = '\x00' then ['\\', '0']
  else if isPrintable c then [c]
  else escapeCodePoint c

/-- A text between quotes. -/
def quote (text : List Char) : List Char := '"' :: text.flatMap escape ++ ['"']

/-- A text between quotes, as a string. -/
def quoted (text : String) : String := String.ofList (quote text.toList)

end ExactUnits.Text
