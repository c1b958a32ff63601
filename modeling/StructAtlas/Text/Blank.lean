import StructAtlas.Text.Ranges

set_option autoImplicit false

/-!
# Blank characters

The characters that separate tokens: space, the control characters tab to carriage return, the four
information separators, and the spaces and line separators of Unicode. The zero width space is not
one of them.
-/

namespace StructAtlas.Text

/-- The blank characters, as closed code point ranges in increasing order. -/
def blankRanges : List (Nat × Nat) :=
  [(0x9, 0xd), (0x1c, 0x20), (0x85, 0x85), (0xa0, 0xa0), (0x1680, 0x1680), (0x2000, 0x200a),
   (0x2028, 0x2029), (0x202f, 0x202f), (0x205f, 0x205f), (0x3000, 0x3000)]

/-- Characters that separate tokens. -/
def isBlank (c : Char) : Bool :=
  inRanges blankRanges c

/-- The text after its leading blanks. -/
def skipBlanks (cs : List Char) : List Char :=
  cs.dropWhile isBlank

/-- The text without the blanks at both ends. -/
def trim (cs : List Char) : List Char :=
  ((skipBlanks cs).reverse.dropWhile isBlank).reverse

/-- The text holds blanks only. -/
def allBlank (cs : List Char) : Bool :=
  cs.all isBlank

end StructAtlas.Text
