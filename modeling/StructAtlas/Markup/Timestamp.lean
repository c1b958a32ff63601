import StructAtlas.Calendar

set_option autoImplicit false

/-!
# Dates in configuration markup

A date is written as year, month and day with hyphens between them. A time of day may follow behind
the letter T or behind blanks, then a fraction of the second, and then the distance from universal
time or the letter Z for none. A line feed may end the text.

Without a tag, a date without time needs two digits for its month and for its day.
-/

namespace StructAtlas.Markup

/-- The fields of a written date. It is padded if month and day have two digits each. -/
structure Timestamp where
  year : Nat
  month : Nat
  day : Nat
  clock : Option Calendar.Clock
  offset : Option Int
  padded : Bool
deriving Repr, DecidableEq

namespace Timestamp

/-- The number written by digits. -/
def number (ds : List Char) : Nat :=
  ds.foldl (fun n c => n * 10 + (c.toNat - '0'.toNat)) 0

/-- The digits at the beginning of a text, as far as their number lies between two bounds, and the
text behind them. -/
def takeDigits (least most : Nat) (cs : List Char) : Option (List Char × List Char) :=
  let ds := (cs.take most).takeWhile Char.isDigit
  if ds.length < least then none else some (ds, cs.drop ds.length)

/-- The text behind a character that has to come first. -/
def after? (c : Char) : List Char → Option (List Char)
  | [] => none
  | d :: cs => if c == d then some cs else none

/-- Spaces and tabs. -/
def isBlank (c : Char) : Bool :=
  c == ' ' || c == '\t'

/-- Takes what stands between a date and a time. -/
def takeDivider : List Char → Option (List Char)
  | [] => none
  | c :: cs =>
    if c == 'T' || c == 't' then some cs
    else if isBlank c then some (cs.dropWhile isBlank)
    else none

/-- The microseconds of a fraction, of which six digits count. -/
def micros (ds : List Char) : Nat :=
  number (ds.take 6 ++ List.replicate (6 - ds.length) '0')

/-- Takes a time of day. -/
def takeClock (cs : List Char) : Option (Calendar.Clock × List Char) := do
  let (hour, cs) ← takeDigits 1 2 cs
  let (minute, cs) ← takeDigits 2 2 (← after? ':' cs)
  let (second, cs) ← takeDigits 2 2 (← after? ':' cs)
  let (fraction, cs) := match cs with
    | '.' :: cs => (cs.takeWhile Char.isDigit, cs.dropWhile Char.isDigit)
    | cs => ([], cs)
  return (⟨number hour, number minute, number second, micros fraction⟩, cs)

/-- Takes the minutes of a distance from universal time, which may be left out. -/
def takeMinutes (cs : List Char) : Nat × List Char :=
  match (after? ':' cs).bind (takeDigits 2 2) with
  | some (minutes, rest) => (number minutes, rest)
  | none => (0, cs)

/-- Takes a distance from universal time, which may be left out. -/
def takeOffset (cs : List Char) : Option Int × List Char :=
  match cs.dropWhile isBlank with
  | 'Z' :: rest => (some 0, rest)
  | sign :: rest =>
    if sign == '+' || sign == '-' then
      match takeDigits 1 2 rest with
      | some (hours, rest) =>
        let (minutes, rest) := takeMinutes rest
        let seconds : Int := number hours * 3600 + minutes * 60
        (some (if sign == '-' then -seconds else seconds), rest)
      | none => (none, cs)
    else (none, cs)
  | [] => (none, cs)

/-- Whether a text ends here, apart from a line feed. -/
def isEnd (cs : List Char) : Bool :=
  cs.isEmpty || cs == ['\n']

/-- Reads a written date. -/
def read? (cs : List Char) : Option Timestamp := do
  let (year, cs) ← takeDigits 4 4 cs
  let (month, cs) ← takeDigits 1 2 (← after? '-' cs)
  let (day, cs) ← takeDigits 1 2 (← after? '-' cs)
  let padded := month.length == 2 && day.length == 2
  let date : Timestamp := ⟨number year, number month, number day, none, none, padded⟩
  if isEnd cs then return date
  let (clock, cs) ← takeClock (← takeDivider cs)
  let (offset, cs) := takeOffset cs
  if isEnd cs then return { date with clock := some clock, offset } else failure

/-- Whether a text without a tag is a date. -/
def isPlain (cs : List Char) : Bool :=
  (read? cs).any fun t => t.clock.isSome || t.padded

end Timestamp

end StructAtlas.Markup
