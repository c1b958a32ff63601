set_option autoImplicit false

/-!
# Comments in source text

A comment is `//` up to the end of its line, or `/*` up to the nearest `*/` that does not share its
star with the opening. An opening `/*` that is never closed is ordinary text.

`strip` removes all comments in one pass from left to right. It either keeps the line feeds of a
removed comment, so that every remaining character stays on its line, or drops them too. What
remains is a part of the text in the same order (`strip_sublist`), and with the line feeds kept the
number of lines is the same (`count_strip`).
-/

namespace StructAtlas.Comment

/-- The length of a text up to its first line feed. -/
def lineLength : List Char → Nat
  | [] => 0
  | c :: cs => if c == '\n' then 0 else lineLength cs + 1

/-- The length of a text through the end of the block comment it lies in. The flag says that the
character before was a star of the comment. -/
def blockLength? : Bool → List Char → Option Nat
  | _, [] => none
  | afterStar, c :: cs =>
    if afterStar && c == '/' then some 1
    else (blockLength? (c == '*') cs).map (· + 1)

/-- The length of the comment that a text begins with. -/
def length? : List Char → Option Nat
  | '/' :: '/' :: cs => some (lineLength cs + 2)
  | '/' :: '*' :: cs => (blockLength? false cs).map (· + 2)
  | _ => none

/-- Removes comments; the number counts the characters of a comment that are still to be removed. -/
def stripFrom (keepLines : Bool) : Nat → List Char → List Char
  | _, [] => []
  | pending + 1, c :: cs =>
    if keepLines && c == '\n' then c :: stripFrom keepLines pending cs
    else stripFrom keepLines pending cs
  | 0, c :: cs =>
    match length? (c :: cs) with
    | some n => stripFrom keepLines (n - 1) cs
    | none => c :: stripFrom keepLines 0 cs

/-- The text without its comments. -/
def strip (keepLines : Bool) (cs : List Char) : List Char :=
  stripFrom keepLines 0 cs

/-- The function `strip` on strings. -/
def stripText (keepLines : Bool) (s : String) : String :=
  String.ofList (strip keepLines s.toList)

/-- Removing comments and keeping their line feeds keeps the number of lines. -/
theorem count_stripFrom (pending : Nat) (cs : List Char) :
    (stripFrom true pending cs).count '\n' = cs.count '\n' := by
  fun_induction stripFrom true pending cs with
  | case1 => rfl
  | case2 pending c cs h ih => simp_all
  | case3 pending c cs h ih =>
    have h : ¬ c = '\n' := by simpa using h
    simpa [h] using ih
  | case4 c cs n h ih =>
    have hc : ¬ c = '\n' := by
      rintro rfl
      simp [length?] at h
    simpa [hc] using ih
  | case5 c cs h ih => simp [List.count_cons, ih]

theorem count_strip (cs : List Char) : (strip true cs).count '\n' = cs.count '\n' :=
  count_stripFrom 0 cs

theorem stripFrom_sublist (keepLines : Bool) (pending : Nat) (cs : List Char) :
    (stripFrom keepLines pending cs).Sublist cs := by
  fun_induction stripFrom keepLines pending cs with
  | case1 => exact List.Sublist.refl _
  | case2 _ _ _ _ ih => exact ih.cons_cons _
  | case3 _ _ _ _ ih => exact ih.cons _
  | case4 _ _ _ _ ih => exact ih.cons _
  | case5 _ _ _ ih => exact ih.cons_cons _

/-- Nothing is added and nothing changes its order. -/
theorem strip_sublist (keepLines : Bool) (cs : List Char) : (strip keepLines cs).Sublist cs :=
  stripFrom_sublist keepLines 0 cs

end StructAtlas.Comment
