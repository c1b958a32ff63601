import StructAtlas.Markup.Cursor
import StructAtlas.Text.Digit
import StructAtlas.Text.Quoted

set_option autoImplicit false

/-!
# Scalars in configuration markup

A scalar is written plain, in single or double quotes, or as a block under `|` or `>`. Each reader
takes a cursor at the scalar and returns its text and the cursor behind it. A line end inside a
plain or quoted scalar becomes a space, and further empty lines become line feeds. An escape in
double quotes may give a code point that is no character, so quoted scalars are code points.

Loops carry a bound on their rounds. Every round but the last takes a character, so the number of
characters left is bound enough.
-/

namespace StructAtlas.Markup.Scalar

/-- The text that a line end and the line ends behind it stand for. -/
def fold (first : Char) (more : List Char) : List Char :=
  if first != '\n' then first :: more else if more.isEmpty then [' '] else more

/-! ## Plain scalars -/

/-- Characters with a meaning of their own inside brackets. -/
def isFlowMark (c : Char) : Bool :=
  c == ',' || c == '[' || c == ']' || c == '\x7b' || c == '\x7d'

/-- How far a plain scalar reaches within its line. A colon ends it only before a gap. -/
def plainLength (inFlow : Bool) : List Char → Nat
  | [] => 0
  | c :: cs =>
    if isGap c then 0
    else if c == ':' && (atGap cs || (inFlow && cs.head?.any isFlowMark)) then 0
    else if inFlow && (c == '?' || isFlowMark c) then 0
    else plainLength inFlow cs + 1

/-- Skips spaces and line ends and collects the line ends. There is no result before a document
mark. -/
def plainBreaks : Nat → Cursor → Option (List Char) × Cursor
  | 0, c => (some [], c)
  | fuel + 1, c =>
    if c.isAt ' ' then plainBreaks fuel c.next
    else
      match c.takeBreak? with
      | none => (some [], c)
      | some (b, c) =>
        if c.isAtMark then (none, c)
        else
          let r := plainBreaks fuel c
          (r.1.map (b :: ·), r.2)

/-- What stands between two stretches of a plain scalar: the text that is kept, or none before a
document mark, and whether a line end was crossed. -/
structure Between where
  text : Option (List Char)
  cursor : Cursor
  crossed : Bool

/-- Takes the spaces and line ends behind a stretch of a plain scalar. -/
def between (c : Cursor) : Between :=
  let (spaces, c) := c.takeWhile (· == ' ')
  match c.takeBreak? with
  | none => ⟨some spaces, c, false⟩
  | some (b, c) =>
    if c.isAtMark then ⟨none, c, true⟩
    else
      let (more, c) := plainBreaks c.rest.length c
      ⟨more.map (fold b), c, true⟩

/-- Takes the stretches of a plain scalar. The text between the last stretch and the next one is
given; a stretch on a later line has to be indented. -/
def plainFrom (inFlow : Bool) (indent : Int) :
    Nat → List Char → Bool → Cursor → List Char × Bool × Cursor
  | 0, _, crossed, c => ([], crossed, c)
  | fuel + 1, before, crossed, c =>
    let n := plainLength inFlow c.rest
    if c.isAt '#' || n == 0 then ([], crossed, c)
    else
      let stretch := before ++ c.rest.take n
      let b := between (c.skip n)
      match b.text with
      | some (x :: xs) =>
        if b.cursor.isAt '#' || (!inFlow && (b.cursor.column : Int) < indent) then
          (stretch, b.crossed, b.cursor)
        else
          let r := plainFrom inFlow indent fuel (x :: xs) b.crossed b.cursor
          (stretch ++ r.1, r.2)
      | _ => (stretch, b.crossed, b.cursor)

/-- Takes a plain scalar; the flag says whether it ended behind a line end. -/
def plain (inFlow : Bool) (indent : Int) (c : Cursor) : List Char × Bool × Cursor :=
  plainFrom inFlow indent c.rest.length [] false c

/-! ## Quoted scalars -/

/-- Skips spaces, tabs and line ends and collects the line ends. A document mark is not allowed. -/
def quotedBreaks : Nat → Cursor → Except Fault (List Char × Cursor)
  | 0, c => .ok ([], c)
  | fuel + 1, c =>
    if c.isAtMark then .error .malformed
    else
      let c := c.dropWhile fun x => x == ' ' || x == '\t'
      match c.takeBreak? with
      | none => .ok ([], c)
      | some (b, c) => (quotedBreaks fuel c).map fun r => (b :: r.1, r.2)

/-- The characters that one-letter escapes stand for. -/
def escapes : List (Char × Char) :=
  [('0', '\x00'), ('a', '\x07'), ('b', '\x08'), ('t', '\t'), ('\t', '\t'), ('n', '\n'),
   ('v', '\x0b'), ('f', '\x0c'), ('r', '\r'), ('e', '\x1b'), (' ', ' '), ('"', '"'), ('\\', '\\'),
   ('/', '/'), ('N', '\x85'), ('_', '\xa0'), ('L', '\u2028'), ('P', '\u2029')]

/-- How many digits a numeric escape has. -/
def escapeWidth? (c : Char) : Option Nat :=
  if c == 'x' then some 2 else if c == 'u' then some 4 else if c == 'U' then some 8 else none

/-- The number written by hexadecimal digits. -/
def hexNumber? : Nat → List Char → Option Nat
  | n, [] => some n
  | n, c :: cs => (Text.hexValue? c).bind fun d => hexNumber? (n * 16 + d) cs

/-- The code point of a numeric escape of a given width. -/
def numericEscape (width : Nat) (c : Cursor) : Except Fault (Nat × Cursor) :=
  let digits := c.rest.take width
  if digits.length < width then .error .malformed
  else
    match hexNumber? 0 digits with
    | none => .error .malformed
    | some n =>
      if 0x80000000 ≤ n then .error .overflow
      else if 0x110000 ≤ n then .error .codePoint
      else .ok (n, c.skip width)

/-- Takes an escape behind its backslash. An escaped line end stands for nothing but the empty lines
behind it. -/
def escape (c : Cursor) : Except Fault (List Nat × Cursor) :=
  match c.rest with
  | [] => .error .malformed
  | x :: _ =>
    match escapes.lookup x, escapeWidth? x, c.takeBreak? with
    | some y, _, _ => .ok ([y.toNat], c.next)
    | none, some width, _ => (numericEscape width c.next).map fun r => ([r.1], r.2)
    | none, none, some (_, c) => (quotedBreaks c.rest.length c).map fun r => (Text.codes r.1, r.2)
    | none, none, none => .error .malformed

/-- Takes the spaces, tabs and line ends at the cursor. -/
def quotedGap (c : Cursor) : Except Fault (List Nat × Cursor) :=
  let (spaces, c) := c.takeWhile fun x => x == ' ' || x == '\t'
  match c.takeBreak? with
  | none => .ok (Text.codes spaces, c)
  | some (b, c) =>
    (quotedBreaks (c.rest.length + 1) c).map fun r => (Text.codes (fold b r.1), r.2)

/-- Takes one piece of a quoted scalar: `none` at its closing quote. -/
def quotedPiece (quote : Char) (c : Cursor) : Except Fault (Option (List Nat) × Cursor) :=
  match c.rest with
  | [] => .error .malformed
  | x :: rest =>
    if isGap x then (quotedGap c).map fun r => (some r.1, r.2)
    else if x == quote then
      if quote == '\'' && rest.head? == some '\'' then .ok (some ['\''.toNat], c.skip 2)
      else .ok (none, c.next)
    else if quote == '"' && x == '\\' then (escape c.next).map fun r => (some r.1, r.2)
    else .ok (some [x.toNat], c.next)

/-- Takes the pieces of a quoted scalar behind its opening quote. -/
def quotedFrom (quote : Char) : Nat → Cursor → Except Fault (List Nat × Cursor)
  | 0, _ => .error .malformed
  | fuel + 1, c => do
    match ← quotedPiece quote c with
    | (none, c) => return ([], c)
    | (some piece, c) =>
      let r ← quotedFrom quote fuel c
      return (piece ++ r.1, r.2)

/-- Takes a scalar between a pair of quotes. -/
def quoted (quote : Char) (c : Cursor) : Except Fault (List Nat × Cursor) :=
  quotedFrom quote (c.rest.length + 1) c.next

/-! ## Block scalars -/

/-- How many line ends stay behind a block: one, none or all. -/
inductive Chomping where
  | clip
  | strip
  | keep
deriving Repr, DecidableEq

/-- The marks behind the indicator of a block; the increment is the stated indentation. -/
structure BlockHeader where
  chomping : Chomping
  increment : Option Nat
deriving Repr, DecidableEq

/-- The chomping that a character stands for. -/
def chomping? (c : Option Char) : Option Chomping :=
  if c == some '+' then some .keep else if c == some '-' then some .strip else none

/-- Takes an indentation of one digit. -/
def takeIncrement (c : Cursor) : Except Fault (Option Nat × Cursor) :=
  match c.peek? with
  | some x =>
    if x == '0' then .error .malformed
    else if '1' ≤ x && x ≤ '9' then .ok (some (x.toNat - '0'.toNat), c.next)
    else .ok (none, c)
  | none => .ok (none, c)

/-- Takes the marks behind the indicator of a block, in either order. -/
def blockHeader (c : Cursor) : Except Fault (BlockHeader × Cursor) := do
  let (header, c) ←
    match chomping? c.peek? with
    | some chomping =>
      let (increment, c) ← takeIncrement c.next
      pure (BlockHeader.mk chomping increment, c)
    | none =>
      let (increment, c) ← takeIncrement c
      match increment, chomping? c.peek? with
      | some n, some chomping => pure (BlockHeader.mk chomping (some n), c.next)
      | increment, _ => pure (BlockHeader.mk .clip increment, c)
  if atSpace c.rest then return (header, c) else throw .malformed

/-- Takes the rest of a line, which may only hold spaces and a comment. -/
def ignoredLine (c : Cursor) : Except Fault Cursor :=
  let c := c.dropWhile (· == ' ')
  let c := if c.isAt '#' then c.dropWhile fun x => !isBreak x else c
  if atBreak c.rest then
    match c.takeBreak? with
    | some (_, c) => .ok c
    | none => .ok c
  else .error .malformed

/-- Skips spaces and line ends before the first line of a block. Returns the line ends and the
largest column reached. -/
def leadingBreaks : Nat → Nat → Cursor → List Char × Nat × Cursor
  | 0, widest, c => ([], widest, c)
  | fuel + 1, widest, c =>
    if c.isAt ' ' then leadingBreaks fuel (max widest c.next.column) c.next
    else
      match c.takeBreak? with
      | some (b, c) =>
        let r := leadingBreaks fuel widest c
        (b :: r.1, r.2)
      | none => ([], widest, c)

/-- Skips empty lines of a block and the indentation of the next line; returns the line ends. -/
def blockBreaks (indent : Nat) : Nat → Cursor → List Char × Cursor
  | 0, c => ([], c)
  | fuel + 1, c =>
    let c := c.skipSpacesTo indent
    match c.takeBreak? with
    | some (b, c) =>
      let r := blockBreaks indent fuel c
      (b :: r.1, r.2)
    | none => ([], c)

/-- The text does not begin with a space or a tab. -/
def startsDense (cs : List Char) : Bool :=
  !(cs.head? == some ' ' || cs.head? == some '\t')

/-- The lines of a block: its text, the last line end, the line ends behind it, and the cursor. -/
structure BlockLines where
  text : List Char
  last : List Char
  trailing : List Char
  cursor : Cursor

/-- Whether a cursor stands at another line of a block. -/
def goesOn (indent : Nat) (c : Cursor) : Bool :=
  c.column == indent && !c.rest.isEmpty

/-- Takes the lines of a block. The line ends before the first line are given. A folded block joins
dense lines by a space. -/
def blockLines (folded : Bool) (indent : Nat) : Nat → List Char → Cursor → BlockLines
  | 0, breaks, c => ⟨[], [], breaks, c⟩
  | fuel + 1, breaks, c =>
    let (content, after) := c.takeWhile fun x => !isBreak x
    let (lineEnd, after) := match after.takeBreak? with
      | some (b, after) => ([b], after)
      | none => ([], after)
    let (more, after) := blockBreaks indent after.rest.length after
    if goesOn indent after then
      let joint :=
        if folded && lineEnd == ['\n'] && startsDense content && startsDense after.rest then
          if more.isEmpty then [' '] else []
        else lineEnd
      let rest := blockLines folded indent fuel more after
      { rest with text := breaks ++ content ++ joint ++ rest.text }
    else ⟨breaks ++ content, lineEnd, more, after⟩

/-- Takes a block scalar at its indicator; `indent` is the indentation of the block around it. -/
def block (folded : Bool) (indent : Int) (c : Cursor) : Except Fault (List Char × Cursor) := do
  let (header, c) ← blockHeader c.next
  let c ← ignoredLine c
  let least := max 1 (indent + 1).toNat
  let (breaks, width, c) :=
    match header.increment with
    | some n =>
      let width := least + n - 1
      let r := blockBreaks width c.rest.length c
      (r.1, width, r.2)
    | none =>
      let r := leadingBreaks c.rest.length 0 c
      (r.1, max least r.2.1, r.2.2)
  let lines :=
    if goesOn width c then blockLines folded width c.rest.length breaks c else ⟨[], [], breaks, c⟩
  let ending := match header.chomping with
    | .clip => lines.last
    | .strip => []
    | .keep => lines.last ++ lines.trailing
  return (lines.text ++ ending, lines.cursor)

end StructAtlas.Markup.Scalar
