import StructAtlas.Text.Printable

set_option autoImplicit false

/-!
# Quoted text

Messages show a piece of text between quotes so that its ends and its hidden characters can be seen.
Single quotes are used unless the text holds a single quote and no double quote. The chosen quote,
the backslash, line feed, carriage return and tab have two-character escapes; every other character
that is not printable is shown by its code point in lower case hexadecimal.

Texts read from files may hold code points that are no characters, namely halves of pairs of a text
in 16 bit units. `quotedCodes` shows such a text.
-/

namespace StructAtlas.Text

/-- The lower case hexadecimal digit for a number below sixteen. -/
def hexDigit (n : Nat) : Char :=
  if n < 10 then Char.ofNat ('0'.toNat + n) else Char.ofNat ('a'.toNat + (n - 10))

/-- The last `width` hexadecimal digits of a number. -/
def hexDigits : Nat → Nat → List Char
  | 0, _ => []
  | width + 1, n => hexDigits width (n / 16) ++ [hexDigit (n % 16)]

/-- A code point as an escape of two, four or eight hexadecimal digits. -/
def codePointEscape (n : Nat) : List Char :=
  if n < 0x100 then '\\' :: 'x' :: hexDigits 2 n
  else if n < 0x10000 then '\\' :: 'u' :: hexDigits 4 n
  else '\\' :: 'U' :: hexDigits 8 n

/-- The quote that encloses a text. -/
def quoteFor (cs : List Char) : Char :=
  if cs.contains '\'' && !cs.contains '"' then '"' else '\''

/-- One character of a text enclosed by `quote`. -/
def escapeChar (quote c : Char) : List Char :=
  if c == quote || c == '\\' then ['\\', c]
  else if c == '\n' then ['\\', 'n']
  else if c == '\r' then ['\\', 'r']
  else if c == '\t' then ['\\', 't']
  else if isPrintable c then [c]
  else codePointEscape c.toNat

/-- A text between quotes with its hidden characters escaped. -/
def quoted (cs : List Char) : List Char :=
  let quote := quoteFor cs
  quote :: cs.flatMap (escapeChar quote) ++ [quote]

/-- The code points of a text. -/
def codes (cs : List Char) : List Nat :=
  cs.map Char.toNat

/-- One code point of a text enclosed by `quote`. A code point that is no character is shown by its
number. -/
def escapeCode (quote : Char) (n : Nat) : List Char :=
  if n.isValidChar then escapeChar quote (Char.ofNat n) else codePointEscape n

/-- Code points between quotes. -/
def quotedCodes (codes : List Nat) : List Char :=
  let quote := quoteFor (codes.map Char.ofNat)
  quote :: codes.flatMap (escapeCode quote) ++ [quote]

/-- The function `quoted` on strings. -/
def quote (s : String) : String :=
  String.ofList (quoted s.toList)

end StructAtlas.Text
