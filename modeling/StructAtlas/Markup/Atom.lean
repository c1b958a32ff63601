import StructAtlas.Decimal.Real
import StructAtlas.Markup.Tag
import StructAtlas.Markup.Token
import StructAtlas.Text.Base64
import StructAtlas.Text.Lowercase
import StructAtlas.Value

set_option autoImplicit false

/-!
# The values of scalars

The tag of a scalar says how its text is read. A tag may be written on a text that has not the form
it asks for, so each of these readers can find fault with its text.

Numbers may be grouped with underscores. Whole numbers may be written in base two, eight, ten and
sixteen, and both kinds of numbers with colons in base sixty.
-/

namespace StructAtlas.Markup.Atom

/-- The characters of a text. A code point that is no character becomes one that occurs in no
number, no word and no date. -/
def chars (text : List Nat) : List Char :=
  text.map Char.ofNat

/-- A text without the underscores that group it. -/
def ungrouped (text : List Nat) : List Nat :=
  text.filter (· != '_'.toNat)

/-- The parts of a text between colons. -/
def parts (text : List Nat) : List (List Nat) :=
  text.splitOn ':'.toNat

/-- A text in lower case. -/
def lowered (text : List Nat) : List Nat :=
  if Text.areCharacters text then Text.codes (Text.lower (chars text))
  else
    text.flatMap fun n => if n.isValidChar then Text.codes (Text.lowerChar (Char.ofNat n)) else [n]

/-- Reads a truth value. -/
def truth (text : List Nat) : Except Fault Bool :=
  match Tag.truthWords.lookup (String.ofList (chars (lowered text))) with
  | some b => .ok b
  | none => .error .truthWord

/-- A sign and the text behind it. A number is at least one character. -/
def takeSign (text : List Nat) : Except Fault (Bool × List Nat) :=
  match text with
  | [] => .error .emptyNumber
  | n :: rest =>
    if n == '-'.toNat then .ok (true, rest)
    else if n == '+'.toNat then .ok (false, rest)
    else .ok (false, text)

/-- Reads a whole number in a base. -/
def wholeIn (base : Nat) (text : List Nat) : Except Fault Int :=
  match Decimal.readIn base (chars text) with
  | .ok n => .ok n
  | .error (.malformed ..) => .error (.whole base text)
  | .error (.tooLong digits) => .error (.tooLong digits)

/-- The number of digits in base sixty, the first of which weighs most. -/
def sixtieths (digits : List Int) : Int :=
  digits.foldl (fun n d => n * 60 + d) 0

/-- Reads a whole number without sign. -/
def natural (text : List Nat) : Except Fault Int :=
  match chars text with
  | [] => .error .emptyNumber
  | ['0'] => .ok 0
  | '0' :: 'b' :: _ => wholeIn 2 (text.drop 2)
  | '0' :: 'x' :: _ => wholeIn 16 (text.drop 2)
  | '0' :: _ => wholeIn 8 text
  | _ =>
    if text.contains ':'.toNat then (sixtieths ·) <$> (parts text).mapM (wholeIn 10)
    else wholeIn 10 text

/-- Reads a whole number. -/
def whole (text : List Nat) : Except Fault Int := do
  let (negative, body) ← takeSign (ungrouped text)
  let n ← natural body
  return if negative then -n else n

/-- Reads a floating point number without colons. -/
def decimal (text : List Nat) : Except Fault Float :=
  match Decimal.readFloat? (chars text) with
  | some x => .ok x
  | none => .error (.real text)

/-- How many digits a floating point number may have in base sixty. The weight of a further one is
too large for a floating point number. -/
def sixtiethLimit : Nat := 174

/-- The sum of digits in base sixty, the last of which weighs most. The weight of the first one is
given. -/
def sixtiethSum : Nat → Float → List Float → Float
  | _, sum, [] => sum
  | weight, sum, d :: ds =>
    sixtiethSum (weight * 60) (sum + d * Decimal.toFloat false weight 0) ds

/-- Reads a floating point number without sign. -/
def fractional (text : List Nat) : Except Fault Float := do
  if chars text == ".inf".toList then return 1.0 / 0.0
  else if chars text == ".nan".toList then return 0.0 / 0.0
  else if text.contains ':'.toNat then
    let digits ← (parts text).mapM decimal
    if sixtiethLimit < digits.length then throw .overflow
    return sixtiethSum 1 0.0 digits.reverse
  else decimal text

/-- Reads a floating point number. -/
def real (text : List Nat) : Except Fault Float := do
  let (negative, body) ← takeSign (lowered (ungrouped text))
  let x ← fractional body
  return if negative then -x else x

/-- Reads a text of bytes. -/
def binary (text : List Nat) : Except Fault (List UInt8) :=
  if text.all (· < 128) then
    match Text.Base64.decode? (chars text) with
    | some bytes => .ok bytes
    | none => .error .malformed
  else .error .malformed

/-- Reads a date or a moment. -/
def timestamp (text : List Nat) : Except Fault Value :=
  match Timestamp.read? (chars text) with
  | none => .error .dateForm
  | some t =>
    let date := Calendar.Date.make t.year t.month t.day
    match t.clock with
    | none => (date.map Value.date).mapError .calendar
    | some clock => ((Calendar.Moment.make date clock t.offset).map Value.moment).mapError .calendar

/-- The value of a scalar under a tag. -/
def read (tag : Tag) (text : List Nat) : Except Fault Value :=
  match tag with
  | .null => .ok .null
  | .bool => (truth text).map .bool
  | .int => (whole text).map .int
  | .float => (real text).map .float
  | .binary => (binary text).map .bytes
  | .timestamp => timestamp text
  | .str => .ok (.ofCodes text)
  | _ => .error .malformed

end StructAtlas.Markup.Atom
