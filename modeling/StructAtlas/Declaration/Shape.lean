import StructAtlas.Text.Digit
import StructAtlas.Text.Split
import StructAtlas.Text.Word

set_option autoImplicit false

/-!
# The four shapes of a struct declaration

A declaration is an alias for a struct with a body, a tagged struct with a body, a packed struct
with a body, or a forward declaration. Every shape has a reader that takes the declaration from the
front of a text and returns the names in it together with what follows. A body ends at its first
closing brace, whatever braces it opens inside.

Words and blanks have no character in common and neither holds a brace, a parenthesis or a
semicolon, so every reader takes the longest run of a class at each step and never has to step back.
What each reader takes is stated beside it, as a decomposition of the text.
-/

namespace StructAtlas

/-- The shapes of a declaration, in the order in which they are tried. -/
inductive Shape where
  | typedef
  | tagged
  | packed
  | forward
deriving Repr, DecidableEq

namespace Shape

/-- The name of a shape. -/
def name : Shape → String
  | .typedef => "typedef"
  | .tagged => "tagged"
  | .packed => "packed"
  | .forward => "forward"

/-- Whether declarations of the shape have a body. -/
def hasBody : Shape → Bool
  | .forward => false
  | _ => true

end Shape

namespace Reading

/-- The text behind a fixed word or mark. -/
def keyword (k : String) (cs : List Char) : Option (List Char) :=
  Text.dropStart? k.toList cs

/-- The text behind one given character. -/
def mark (k : Char) : List Char → Option (List Char)
  | c :: cs => if c == k then some cs else none
  | [] => none

/-- The text behind one or more blanks. -/
def gap : List Char → Option (List Char)
  | c :: cs => if Text.isBlank c then some (Text.skipBlanks cs) else none
  | [] => none

/-- A word, and the text behind it. -/
def word (cs : List Char) : Option (List Char × List Char) :=
  match cs.takeWhile Text.isWord with
  | [] => none
  | w => some (w, cs.dropWhile Text.isWord)

/-- The text behind the first closing brace. -/
def pastBrace : List Char → Option (List Char)
  | [] => none
  | c :: cs => if c == '\x7d' then some cs else pastBrace cs

/-- The text behind a body: an opening brace through the first closing brace. -/
def body (cs : List Char) : Option (List Char) :=
  mark '\x7b' cs >>= pastBrace

/-- The text behind `#pragma pack(n)`, where the number may be missing. -/
def packDirective (cs : List Char) : Option (List Char) := do
  let cs ← keyword "#pragma" cs
  let cs ← gap cs
  let cs ← keyword "pack" cs
  let cs ← mark '(' (Text.skipBlanks cs)
  let cs := (Text.skipBlanks cs).dropWhile Text.isDecimal
  mark ')' (Text.skipBlanks cs)

/-- The text behind `__attribute__((packed))`. -/
def packAttribute (cs : List Char) : Option (List Char) := do
  let cs ← keyword "__attribute__" cs
  let cs ← mark '(' (Text.skipBlanks cs)
  let cs ← mark '(' cs
  let cs ← keyword "packed" (Text.skipBlanks cs)
  let cs ← mark ')' (Text.skipBlanks cs)
  mark ')' cs

/-- The text behind either way to ask for packing. -/
def packing (cs : List Char) : Option (List Char) :=
  packDirective cs <|> packAttribute cs

/-- The text behind `struct tag`, up to the character after its trailing blanks, and the tag. -/
def structHead (cs : List Char) : Option (List Char × List Char) := do
  let cs ← keyword "struct" cs
  let cs ← gap cs
  let (tag, cs) ← word cs
  return (tag, Text.skipBlanks cs)

theorem keyword_eq_some {k : String} {cs rest : List Char} :
    keyword k cs = some rest ↔ cs = k.toList ++ rest :=
  Text.dropStart?_eq_some

theorem mark_eq_some {k : Char} {cs rest : List Char} :
    mark k cs = some rest ↔ cs = k :: rest := by
  cases cs with
  | nil => simp [mark]
  | cons c cs => by_cases h : c = k <;> simp [mark, h]

/-- A word is taken whole: it is not empty, and what follows begins with no word character. -/
theorem word_eq_some {cs w rest : List Char} (h : word cs = some (w, rest)) :
    cs = w ++ rest ∧ w ≠ [] ∧ (∀ c ∈ w, Text.isWord c = true)
      ∧ ∀ c ∈ rest.head?, Text.isWord c = false := by
  rw [word] at h
  cases hw : cs.takeWhile Text.isWord with
  | nil => simp [hw] at h
  | cons c w' =>
    simp only [hw, Option.some.injEq, Prod.mk.injEq] at h
    obtain ⟨rfl, rfl⟩ := h
    refine ⟨?_, by simp, ?_, ?_⟩
    · rw [← hw]; exact List.takeWhile_append_dropWhile.symm
    · intro d hd
      rw [← hw] at hd
      exact List.all_eq_true.1 List.all_takeWhile d hd
    · intro d hd
      have := List.head?_dropWhile_not Text.isWord cs
      rw [Option.mem_def.1 hd] at this
      simpa using this

/-- A body ends at the first closing brace. -/
theorem pastBrace_eq_some {cs rest : List Char} :
    pastBrace cs = some rest ↔ ∃ inner, cs = inner ++ '\x7d' :: rest ∧ '\x7d' ∉ inner := by
  induction cs with
  | nil => simp [pastBrace]
  | cons c cs ih =>
    by_cases h : c = '\x7d'
    · subst h
      simp only [pastBrace, beq_self_eq_true, ↓reduceIte, Option.some.injEq]
      constructor
      · rintro rfl; exact ⟨[], by simp⟩
      · rintro ⟨inner, e, hn⟩
        cases inner with
        | nil => simpa using e
        | cons d ds => simp at e; simp [← e.1] at hn
    · simp only [pastBrace, beq_iff_eq, h, ↓reduceIte, ih]
      constructor
      · rintro ⟨inner, rfl, hn⟩
        exact ⟨c :: inner, rfl, by simp [hn]; exact fun e => h e.symm⟩
      · rintro ⟨inner, e, hn⟩
        cases inner with
        | nil => simp at e; exact absurd e.1 h
        | cons d ds => simp at e; exact ⟨ds, e.2, fun hm => hn (by simp [hm])⟩

end Reading

/-- The names in a declaration and the text behind it. A name that is not written is empty. -/
structure NamedParts where
  tag : List Char
  typeName : List Char
  rest : List Char

namespace Shape

open Reading in
/-- Reads `typedef struct [tag] … alias;`. -/
def readTypedef (cs : List Char) : Option NamedParts := do
  let cs ← keyword "typedef" cs
  let cs ← gap cs
  let cs ← keyword "struct" cs
  let cs := Text.skipBlanks cs
  let tag := cs.takeWhile Text.isWord
  let cs ← body (Text.skipBlanks (cs.dropWhile Text.isWord))
  let (typeName, cs) ← word (Text.skipBlanks cs)
  let rest ← mark ';' (Text.skipBlanks cs)
  return ⟨tag, typeName, rest⟩

open Reading in
/-- Reads `struct tag …` with a body. -/
def readTagged (cs : List Char) : Option NamedParts := do
  let (tag, cs) ← structHead cs
  let rest ← body cs
  return ⟨tag, [], rest⟩

open Reading in
/-- Reads a packed struct with a body. -/
def readPacked (cs : List Char) : Option NamedParts := do
  let cs ← packing cs
  readTagged (Text.skipBlanks cs)

open Reading in
/-- Reads `struct tag;`. -/
def readForward (cs : List Char) : Option NamedParts := do
  let (tag, cs) ← structHead cs
  let rest ← mark ';' cs
  return ⟨tag, [], rest⟩

/-- Reads a declaration of the given shape from the front of a text. -/
def read : Shape → List Char → Option NamedParts
  | .typedef => readTypedef
  | .tagged => readTagged
  | .packed => readPacked
  | .forward => readForward

/-- The names in a text that is, as a whole, a declaration of the given shape. -/
def readWhole (s : Shape) (cs : List Char) : Option NamedParts :=
  match s.read cs with
  | some parts => if parts.rest.isEmpty then some parts else none
  | none => none

end Shape

end StructAtlas
