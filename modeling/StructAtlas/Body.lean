import StructAtlas.Declaration.Shape
import StructAtlas.Location

set_option autoImplicit false

/-!
# Bodies of structs

The body of a struct is looked for from a line of its file on. Text of that line before the first
declaration keyword belongs to earlier statements and is skipped. From there the first brace or
semicolon decides: a semicolon means a declaration without body, a closing brace does not match, and
an opening brace begins the body, which ends at the brace that closes it.

`find` returns the body; `begins` only asks whether an opening brace is reached.
-/

namespace StructAtlas.Body

open Reading

/-- Why there is no body at a place: the line is none of the lines of the file, a semicolon comes
before any brace, there is neither, or the number of open braces is not zero where it should be. -/
inductive Fault where
  | outOfBounds (lines : Nat)
  | forward
  | noBody
  | unmatched (depth : Int) (line : Option Nat)
deriving Repr, DecidableEq

/-- The wording of a fault. -/
def Fault.reason : Fault → String
  | .outOfBounds lines => "line number out of bounds (file has " ++ toString lines ++ " lines)"
  | .forward => "forward declaration without body"
  | .noBody => "no struct body found"
  | .unmatched depth line =>
    "unmatched braces, depth = " ++ toString depth
      ++ match line with
        | some n => " (line " ++ toString n ++ ")"
        | none => ""

/-- A body without its outer braces, and the line of the closing one. -/
structure Found where
  text : List Char
  endLine : Nat
deriving Repr, DecidableEq

/-- The text does not begin with a word character. -/
def wordEnds : List Char → Bool
  | [] => true
  | c :: _ => !Text.isWord c

/-- The text begins with a given word that ends there. -/
def startsWithWord (k : String) (cs : List Char) : Bool :=
  match keyword k cs with
  | some rest => wordEnds rest
  | none => false

/-- The text begins with a declaration keyword. The flag says that a word character stands before
it. -/
def startsDeclaration (insideWord : Bool) (cs : List Char) : Bool :=
  (!insideWord && (startsWithWord "typedef" cs || startsWithWord "struct" cs))
    || startsWithWord "#pragma" cs || (keyword "__attribute__" cs).isSome

/-- The text from its first declaration keyword on. -/
def fromKeyword? : Bool → List Char → Option (List Char)
  | _, [] => none
  | insideWord, c :: cs =>
    if startsDeclaration insideWord (c :: cs) then some (c :: cs)
    else fromKeyword? (Text.isWord c) cs

/-- A line from its first declaration keyword on, or the whole line if it has none. -/
def fromKeyword (line : List Char) : List Char :=
  (fromKeyword? false line).getD line

/-- The lines from a line number on, the first one from its declaration keyword on. -/
def sourceFrom? (ls : List (List Char)) (line : Int) : Option (List Char) :=
  if 1 ≤ line && line ≤ ls.length then
    match ls.drop (line.toNat - 1) with
    | first :: others => some (Text.joinLines (fromKeyword first :: others))
    | [] => none
  else none

/-- Collects a body at a line and a depth of open braces, up to the brace that closes the body. -/
def collect (line depth : Nat) : List Char → Except Fault Found
  | [] => .error (.unmatched depth none)
  | c :: cs =>
    if c == '\x7d' && depth ≤ 1 then .ok ⟨[], line⟩
    else
      let line' := if c == '\n' then line + 1 else line
      let depth' := if c == '\x7b' then depth + 1 else if c == '\x7d' then depth - 1 else depth
      (collect line' depth' cs).map fun b => { b with text := c :: b.text }

/-- Looks for the brace that opens a body. -/
def seek (line : Nat) : List Char → Except Fault Found
  | [] => .error .noBody
  | c :: cs =>
    if c == '\x7b' then collect line 1 cs
    else if c == '\x7d' then .error (.unmatched (-1) (some line))
    else if c == ';' then .error .forward
    else seek (if c == '\n' then line + 1 else line) cs

/-- The body that begins at or behind a line. -/
def find (ls : List (List Char)) (line : Int) : Except Fault Found :=
  match sourceFrom? ls line with
  | some source => seek line.toNat source
  | none => .error (.outOfBounds ls.length)

/-- An opening brace comes before any closing brace and any semicolon. -/
def braceFirst : List Char → Bool
  | [] => false
  | c :: cs =>
    if c == '\x7b' then true
    else if c == ';' || c == '\x7d' then false
    else braceFirst cs

/-- Whether a body begins at or behind a line. The braces behind its opening are not looked at. -/
def begins (ls : List (List Char)) (line : Int) : Bool :=
  if 1 ≤ line && line ≤ ls.length then
    match ls.drop (line.toNat - 1) with
    | first :: others => braceFirst ((fromKeyword first :: others).flatten)
    | [] => false
  else false

end StructAtlas.Body
