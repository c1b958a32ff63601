import StructAtlas.Text.Split
import StructAtlas.Text.Wide

set_option autoImplicit false

/-!
# Glob patterns

A pattern is matched against a whole text. A star stands for any run of characters, a question mark
for one character, and a bracketed set for one character inside or outside the set. Slashes and line
feeds are characters like all others. A bracket that is never closed stands for itself, a closing
bracket directly behind the opening belongs to the set, and a range whose ends are in the wrong
order holds nothing. A set that begins with an exclamation mark, once such ranges are removed, holds
the characters that it does not list.

`Glob.suffixes` decides all suffixes of a text at once, so the time is proportional to the product
of the two lengths.
-/

namespace StructAtlas.Glob

/-- A pattern element: any run of characters, any one character, a given one, or one inside or
outside some ranges. -/
inductive Token where
  | star
  | any
  | char (c : Nat)
  | set (negated : Bool) (ranges : List (Nat × Nat))
deriving Repr, DecidableEq

/-- Whether an element other than a star accepts a character. -/
def Token.accepts : Token → Nat → Bool
  | .star, _ => false
  | .any, _ => true
  | .char k, c => k == c
  | .set negated ranges, c => negated != ranges.any fun r => r.1 ≤ c && c ≤ r.2

/-- The text of a set before its closing bracket, and the pattern behind it. The closing bracket is
looked for from the second character of the set on, and a leading exclamation mark does not count.
-/
def closeSet : List Nat → Option (List Nat × List Nat)
  | mark :: first :: more =>
    if mark == '!'.toNat then
      (Text.splitFirst? ']'.toNat more).map fun r => (mark :: first :: r.1, r.2)
    else (Text.splitFirst? ']'.toNat (first :: more)).map fun r => (mark :: r.1, r.2)
  | _ => none

/-- Cuts the text of a set at the hyphens that form ranges. A hyphen forms a range if at least one
character stands before it and, after an earlier range, at least two stand between them. The first
number counts the characters that cannot be such a hyphen. -/
def chunks : Nat → List Nat → List Nat → List (List Nat)
  | _, acc, [] => [acc.reverse]
  | guard + 1, acc, c :: cs => chunks guard (c :: acc) cs
  | 0, acc, c :: cs =>
    if c == '-'.toNat then acc.reverse :: chunks 2 [] cs else chunks 0 (c :: acc) cs

/-- A trailing hyphen stands for itself. -/
def keepTrailing : List (List Nat) → List (List Nat)
  | [] => []
  | [last, []] => [last ++ ['-'.toNat]]
  | part :: parts => part :: keepTrailing parts

/-- Removes the ranges whose ends are in the wrong order, from the last one to the first. -/
def dropEmptyRanges : List (List Nat) → List (List Nat)
  | [] => []
  | part :: parts =>
    match dropEmptyRanges parts with
    | [] => [part]
    | next :: others =>
      match part.getLast?, next.head? with
      | some lo, some hi =>
        if hi < lo then (part.dropLast ++ next.drop 1) :: others else part :: next :: others
      | _, _ => part :: next :: others

/-- Single characters as ranges. -/
def singles (cs : List Nat) : List (Nat × Nat) :=
  cs.map fun c => (c, c)

/-- The ranges of the parts of a set: the last character of a part and the first character of the
next part are the ends of a range. `inner` says that the first character of the first part has been
used. -/
def rangesOf (inner : Bool) : List (List Nat) → List (Nat × Nat)
  | [] => []
  | [part] => singles (if inner then part.drop 1 else part)
  | part :: next :: parts =>
    let own := singles ((if inner then part.drop 1 else part).dropLast)
    match part.getLast?, next.head? with
    | some lo, some hi => own ++ (lo, hi) :: rangesOf true (next :: parts)
    | _, _ => own ++ rangesOf true (next :: parts)

/-- How many characters at the beginning of a set cannot be the hyphen of a range. -/
def leadLength (body : List Nat) : Nat :=
  if body.head? == some '!'.toNat then 2 else 1

/-- The parts of a set behind its exclamation mark. Without a character before it, a hyphen stands
for itself. -/
def partsBehindMark : List (List Nat) → List (List Nat)
  | [] :: next :: parts => ('-'.toNat :: next) :: parts
  | parts => parts

/-- The element for the text between two brackets. -/
def setToken (body : List Nat) : Token :=
  match dropEmptyRanges (keepTrailing (chunks (leadLength body) [] body)) with
  | (first :: part) :: parts =>
    if first != '!'.toNat then .set false (rangesOf false ((first :: part) :: parts))
    else if part.isEmpty && parts.isEmpty then .any
    else .set true (rangesOf false (partsBehindMark (part :: parts)))
  | parts => .set false (rangesOf false parts)

/-- Reads a pattern; the first argument bounds the number of elements. -/
def tokens : Nat → List Nat → List Token
  | 0, _ => []
  | _ + 1, [] => []
  | fuel + 1, c :: cs =>
    if c == '*'.toNat then .star :: tokens fuel cs
    else if c == '?'.toNat then .any :: tokens fuel cs
    else if c == '['.toNat then
      match closeSet cs with
      | some (inner, rest) => setToken inner :: tokens fuel rest
      | none => .char c :: tokens fuel cs
    else .char c :: tokens fuel cs

/-- The elements of a pattern. -/
def parse (pattern : List Nat) : List Token :=
  tokens pattern.length pattern

/-- For every position, whether some later position, or the position itself, is marked. -/
def orLater : List Bool → List Bool
  | [] => []
  | b :: bs =>
    let later := orLater bs
    (b || later.headD false) :: later

/-- For every suffix of a text, from the whole text to the empty one, whether the elements match it.
-/
def suffixes : List Token → List Nat → List Bool
  | [], cs => cs.map (fun _ => false) ++ [true]
  | .star :: ts, cs => orLater (suffixes ts cs)
  | t :: ts, cs =>
    List.zipWith (fun c matched => t.accepts c && matched) cs (suffixes ts cs).tail ++ [false]

/-- Whether a pattern matches a whole text. -/
def covers (pattern text : WideText) : Bool :=
  (suffixes (parse pattern.codes) text.codes).headD false

/-- Whether one of several patterns matches. -/
def matchesAny (text : WideText) (patterns : List WideText) : Bool :=
  patterns.any fun p => covers p text

end StructAtlas.Glob
