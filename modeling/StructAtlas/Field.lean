import StructAtlas.Comment
import StructAtlas.Declaration.Shape

set_option autoImplicit false

/-!
# Fields of a body

A body is a sequence of statements, each ended by a semicolon. A statement is a field if it consists
of an optional `struct`, type words of which all but the last are qualifiers, a star or blanks, a
name, and an optional text in square brackets. Lines that begin with `#` are dropped before the body
is cut into statements. Statements of any other form are set aside.
-/

namespace StructAtlas

/-- A field of a struct: its name, its type words separated by single spaces, whether a star stands
before the name, the text in square brackets without the blanks around it, and whether the keyword
`struct` stands before the type. -/
structure Field where
  name : String
  type : String
  isPointer : Bool
  repetition : Option String
  isStruct : Bool
deriving Repr, DecidableEq

namespace Field

/-- The words that may stand before the last type word. -/
def qualifiers : List (List Char) :=
  ["const".toList, "volatile".toList, "unsigned".toList, "signed".toList]

/-- The type words behind the keyword `struct`, and whether the keyword is there. A lone `struct` is
a type word. -/
def takeStruct : List (List Char) → Bool × List (List Char)
  | w :: v :: more => if w == "struct".toList then (true, v :: more) else (false, w :: v :: more)
  | ws => (false, ws)

/-- The type that type words form. -/
def typeOf? (ws : List (List Char)) : Option (Bool × List Char) :=
  let (isStruct, ws) := takeStruct ws
  if ws.isEmpty || !(ws.dropLast.all qualifiers.contains) then none
  else some (isStruct, [' '].intercalate ws)

/-- Characters that may stand between square brackets. -/
def isInner (c : Char) : Bool :=
  c != '[' && c != ']'

/-- The text in square brackets at the end of a statement: `none` if the statement does not end
there, `some none` if there are no brackets. -/
def readRepetition (cs : List Char) : Option (Option (List Char)) :=
  match Text.skipBlanks cs with
  | [] => some none
  | '[' :: inner =>
    match inner.dropWhile isInner with
    | ']' :: rest =>
      if Text.allBlank rest then some (some (Text.trim (inner.takeWhile isInner))) else none
    | _ => none
  | _ => none

/-- A field from its parts. -/
def make? (typeWords : List (List Char)) (isPointer : Bool) (name rest : List Char) :
    Option Field := do
  let (isStruct, type) ← typeOf? typeWords
  let repetition ← readRepetition rest
  return ⟨String.ofList name, String.ofList type, isPointer, repetition.map String.ofList, isStruct⟩

/-- Characters of words and of the gaps between them. -/
def isWordOrBlank (c : Char) : Bool :=
  Text.isWord c || Text.isBlank c

open Reading in
/-- Reads a statement without its semicolon. -/
def read (statement : List Char) : Option Field :=
  let head := statement.takeWhile isWordOrBlank
  let rest := statement.dropWhile isWordOrBlank
  match mark '*' rest with
  | some rest =>
    match word (Text.skipBlanks rest) with
    | some (name, rest) => make? (Text.words head) true name rest
    | none => none
  | none =>
    match (Text.words head).getLast? with
    | some name => make? (Text.words head).dropLast false name rest
    | none => none

/-- The length of the directive that begins at the start of a line: blanks, which may reach over
several lines, then `#` and the rest of its line. -/
def directiveLength? (cs : List Char) : Option Nat :=
  match Text.skipBlanks cs with
  | '#' :: rest => some ((cs.takeWhile Text.isBlank).length + 1 + Comment.lineLength rest)
  | _ => none

/-- Drops directives. The number counts the characters of a directive that are still to be dropped,
the flag says that a line starts. -/
def dropDirectivesFrom : Nat → Bool → List Char → List Char
  | _, _, [] => []
  | pending + 1, _, _ :: cs => dropDirectivesFrom pending false cs
  | 0, lineStart, c :: cs =>
    match if lineStart then directiveLength? (c :: cs) else none with
    | some n => dropDirectivesFrom (n - 1) false cs
    | none => c :: dropDirectivesFrom 0 (c == '\n') cs

/-- A body without its directives. -/
def dropDirectives (body : List Char) : List Char :=
  dropDirectivesFrom 0 true body

/-- The statements of a body, without their semicolons. What follows the last semicolon is none. -/
def statements (body : List Char) : List (List Char) :=
  (Text.splitOn ';' (dropDirectives body)).dropLast

/-- The fields of a body. -/
def ofBody (body : List Char) : List Field :=
  (statements body).filterMap read

/-- The statements of a body that are no fields, without the blanks around them. -/
def unread (body : List Char) : List (List Char) :=
  ((statements body).filter fun s => (read s).isNone && !Text.allBlank s).map Text.trim

end Field

end StructAtlas
