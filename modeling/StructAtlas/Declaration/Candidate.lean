import StructAtlas.Declaration.Shape

set_option autoImplicit false

/-!
# Candidates for declarations

A candidate is a stretch of text that begins like a declaration and ends like one. Candidates are
collected from left to right and do not overlap. Their search does not look at the characters around
them, so a keyword at the end of a longer word begins a candidate too.

`Candidate.rest?` takes one candidate from the front of a text without asking for its names. It
branches on what the text begins with and shares the head of tagged and forward declarations.
-/

namespace StructAtlas

/-- A stretch of text that may be a declaration. -/
structure Candidate where
  content : List Char
  start : Nat
deriving Repr, DecidableEq

namespace Candidate

open Reading

/-- The text behind the body and the alias of a typedef whose struct keyword has been read. -/
def pastTypedefTail (cs : List Char) : Option (List Char) := do
  let cs := Text.skipBlanks ((Text.skipBlanks cs).dropWhile Text.isWord)
  let cs ← body cs
  let (_, cs) ← word (Text.skipBlanks cs)
  mark ';' (Text.skipBlanks cs)

/-- The text behind the candidate that a text begins with. -/
def rest? (cs : List Char) : Option (List Char) :=
  match keyword "typedef" cs with
  | some cs => do
    let cs ← gap cs
    let cs ← keyword "struct" cs
    pastTypedefTail cs
  | none =>
    match packing cs with
    | some cs => do
      let (_, cs) ← structHead (Text.skipBlanks cs)
      body cs
    | none => do
      let (_, cs) ← structHead cs
      body cs <|> mark ';' cs

/-- The length of the candidate that a text begins with. -/
def length? (cs : List Char) : Option Nat :=
  (rest? cs).map fun rest => cs.length - rest.length

/-- Collects the candidates of a text at offset `pos`; the first number counts the characters of the
last candidate that are still ahead. -/
def collect : Nat → Nat → List Char → List Candidate
  | _, _, [] => []
  | pending + 1, pos, _ :: cs => collect pending (pos + 1) cs
  | 0, pos, c :: cs =>
    match length? (c :: cs) with
    | some n => ⟨(c :: cs).take n, pos⟩ :: collect (n - 1) (pos + 1) cs
    | none => collect 0 (pos + 1) cs

end Candidate

/-- The candidates of a text in text order. -/
def candidates (cs : List Char) : List Candidate :=
  Candidate.collect 0 0 cs

end StructAtlas
