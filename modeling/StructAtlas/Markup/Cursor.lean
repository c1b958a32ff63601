import StructAtlas.Markup.Token

set_option autoImplicit false

/-!
# Reading positions

A cursor is the text still to be read together with the place of its first character. The place is
needed because indentation and the reach of keys are counted in lines and columns.
-/

namespace StructAtlas.Markup

/-- The unread text, the number of line ends before it, of characters of its line before it, and of
all characters before it. -/
structure Cursor where
  rest : List Char
  line : Nat
  column : Nat
  index : Nat
deriving Repr, DecidableEq

/-- Characters that end a line. -/
def isBreak (c : Char) : Bool :=
  c == '\n' || c == '\r' || c == '\x85' || c == '\u2028' || c == '\u2029'

/-- Spaces, tabs and characters that end a line. -/
def isGap (c : Char) : Bool :=
  c == ' ' || c == '\t' || isBreak c

/-- The text ends here or goes on with a gap. -/
def atGap (cs : List Char) : Bool :=
  cs.head?.all isGap

/-- The text ends here or goes on with a line end. -/
def atBreak (cs : List Char) : Bool :=
  cs.head?.all isBreak

/-- The text ends here or goes on with a space or a line end. -/
def atSpace (cs : List Char) : Bool :=
  cs.head?.all fun c => c == ' ' || isBreak c

/-- The mark at the beginning of a text that says how it is encoded. -/
def byteOrderMark : Char := '\ufeff'

namespace Cursor

/-- The beginning of a text. -/
def ofText (cs : List Char) : Cursor :=
  ⟨cs, 0, 0, 0⟩

/-- The next character. -/
def peek? (c : Cursor) : Option Char :=
  c.rest.head?

/-- Whether a given character comes next. -/
def isAt (c : Cursor) (x : Char) : Bool :=
  c.rest.head? == some x

/-- The cursor behind the next character. The byte order mark has no width, and a carriage return
before a line feed ends no line of its own. -/
def next (c : Cursor) : Cursor :=
  match c.rest with
  | [] => c
  | x :: rest =>
    if isBreak x && !(x == '\r' && rest.head? == some '\n') then ⟨rest, c.line + 1, 0, c.index + 1⟩
    else if x == byteOrderMark then ⟨rest, c.line, c.column, c.index + 1⟩
    else ⟨rest, c.line, c.column + 1, c.index + 1⟩

/-- The cursor behind a number of characters. -/
def skip : Nat → Cursor → Cursor
  | 0, c => c
  | n + 1, c => skip n c.next

/-- The longest beginning of characters that satisfy `p`, and the cursor behind it. -/
def takeWhile (p : Char → Bool) (c : Cursor) : List Char × Cursor :=
  let taken := c.rest.takeWhile p
  (taken, c.skip taken.length)

/-- The cursor behind the characters that satisfy `p`. -/
def dropWhile (p : Char → Bool) (c : Cursor) : Cursor :=
  (c.takeWhile p).2

/-- The cursor behind spaces, but not beyond a column. -/
def skipSpacesTo (column : Nat) (c : Cursor) : Cursor :=
  c.skip ((c.rest.take (column - c.column)).takeWhile (· == ' ')).length

/-- Takes a line end. All but the separators of Unicode count as a line feed. -/
def takeBreak? (c : Cursor) : Option (Char × Cursor) :=
  match c.rest with
  | '\r' :: '\n' :: _ => some ('\n', c.skip 2)
  | x :: _ =>
    if x == '\u2028' || x == '\u2029' then some (x, c.next)
    else if isBreak x then some ('\n', c.next)
    else none
  | [] => none

/-- Whether a document mark of three equal characters stands here. -/
def isAtMark (c : Cursor) : Bool :=
  match c.rest with
  | x :: y :: z :: rest => (x == '-' || x == '.') && x == y && y == z && atGap rest
  | _ => false

end Cursor

end StructAtlas.Markup
