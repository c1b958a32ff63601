import StructAtlas.Declaration.Shape

set_option autoImplicit false

/-!
# Uses of a struct

A use is a declaration of a variable: a type name, then either a star and a variable or blanks and a
variable, then an optional array length and a semicolon or comma; or a type name, a variable, an
equals sign and an opening brace. The keyword `struct` may stand in front. Two forms at the same
place are tried in this order, each first with the keyword and then without.

In the initialised form the blanks between type and variable may be missing. Then the last character
of the word counts as the variable, and the type name is the word without it.
-/

namespace StructAtlas.Usage

open Reading

/-- The text behind an array length, if there is a well formed one. -/
def skipLength (cs : List Char) : List Char :=
  match mark '[' cs with
  | some inner =>
    match mark ']' (inner.dropWhile Text.isDecimal) with
    | some rest => rest
    | none => cs
  | none => cs

/-- The text behind a semicolon or a comma. -/
def endMark : List Char → Option (List Char)
  | c :: cs => if c == ';' || c == ',' then some cs else none
  | [] => none

/-- The text behind a star, or behind blanks, that lead to a variable. -/
def separator (cs : List Char) : Option (List Char) :=
  mark '*' (Text.skipBlanks cs) <|> gap cs

/-- The forms `Name *var` and `Name var`, with an optional length, ended by a semicolon or comma. -/
def plainForm (cs : List Char) : Option (List Char × List Char) := do
  let (name, cs) ← word cs
  let cs ← separator cs
  let (_, cs) ← word cs
  let cs := skipLength (Text.skipBlanks cs)
  let rest ← endMark (Text.skipBlanks cs)
  return (name, rest)

/-- The text behind an equals sign and an opening brace. -/
def initMark (cs : List Char) : Option (List Char) := do
  let cs ← mark '=' (Text.skipBlanks cs)
  mark '\x7b' (Text.skipBlanks cs)

/-- The form `Name var` before an initialiser. -/
def spacedInit (name cs : List Char) : Option (List Char × List Char) := do
  let cs ← gap cs
  let (_, cs) ← word cs
  let rest ← initMark cs
  return (name, rest)

/-- One word before an initialiser, read as a name and a variable of one character. -/
def fusedInit (name cs : List Char) : Option (List Char × List Char) := do
  let rest ← initMark cs
  if name.length < 2 then none else return (name.dropLast, rest)

/-- A variable with an initialiser. -/
def initForm (cs : List Char) : Option (List Char × List Char) := do
  let (name, cs) ← word cs
  spacedInit name cs <|> fusedInit name cs

/-- Reads a form behind the keyword `struct`. -/
def afterKeyword (form : List Char → Option (List Char × List Char)) (cs : List Char) :
    Option (List Char × List Char) := do
  let cs ← keyword "struct" cs
  let cs ← gap cs
  form cs

/-- The type name of the use that a text begins with, and the text behind the use. -/
def read (cs : List Char) : Option (List Char × List Char) :=
  afterKeyword plainForm cs <|> plainForm cs <|> afterKeyword initForm cs <|> initForm cs

/-- Collects the uses of a text at offset `pos`; the first number counts the characters of the last
use that are still ahead. -/
def collect : Nat → Nat → List Char → List (String × Nat)
  | _, _, [] => []
  | pending + 1, pos, _ :: cs => collect pending (pos + 1) cs
  | 0, pos, c :: cs =>
    match read (c :: cs) with
    | some (name, rest) =>
      (String.ofList name, pos) :: collect (cs.length - rest.length) (pos + 1) cs
    | none => collect 0 (pos + 1) cs

/-- The type names used in a text, with the offset at which each use begins. -/
def find (cs : List Char) : List (String × Nat) :=
  collect 0 0 cs

end StructAtlas.Usage
