import StructAtlas.Decimal.Real
import StructAtlas.Json.Escape
import StructAtlas.Value

set_option autoImplicit false

/-!
# Reading JSON

`parse` reads one value and requires that only blanks follow it. The last of several equal keys wins
and keeps the place of the first. Not-a-number and the infinities are accepted by name. A whole
number with more digits than `Decimal.digitLimit` is a fault of its own, since it is well formed,
and so is a list or mapping that lies in more than `nestingLimit` others.
-/

namespace StructAtlas.Json

/-- Why a text is not a JSON value that can be represented. -/
inductive Fault where
  | malformed
  | number (fault : Decimal.NumberFault)
  | tooDeep
deriving Repr, DecidableEq

/-- The characters that may stand between two tokens. -/
def isGap (c : Char) : Bool :=
  c == ' ' || c == '\t' || c == '\n' || c == '\r'

/-- The text after leading gaps. -/
def skipGaps (cs : List Char) : List Char :=
  cs.dropWhile isGap

/-- ASCII digits. -/
def isDigit (c : Char) : Bool :=
  '0' ≤ c && c ≤ '9'

/-- The number written by ASCII digits. -/
def digitsToNat (ds : List Char) : Nat :=
  ds.foldl (fun n c => n * 10 + (c.toNat - '0'.toNat)) 0

/-- The digits after a decimal point, if there are any. -/
def takeFraction : List Char → List Char × List Char
  | '.' :: cs =>
    match cs.takeWhile isDigit with
    | [] => ([], '.' :: cs)
    | ds => (ds, cs.dropWhile isDigit)
  | cs => ([], cs)

/-- The exponent after the letter for it, if it has digits. -/
def takeExponent (cs : List Char) : Option Int × List Char :=
  match cs with
  | c :: after =>
    if c == 'e' || c == 'E' then
      let (negative, body) := Decimal.takeSign after
      match body.takeWhile isDigit with
      | [] => (none, cs)
      | ds =>
        let n : Int := if ds.length < 20 then digitsToNat ds else 10000000000000000000
        (some (if negative then -n else n), body.dropWhile isDigit)
    else (none, cs)
  | [] => (none, [])

/-- The digits before the decimal point: a zero, or a run that does not start with one. -/
def takeWhole : List Char → List Char × List Char
  | '0' :: cs => (['0'], cs)
  | cs => (cs.takeWhile isDigit, cs.dropWhile isDigit)

/-- Reads a number. -/
def readNumber (cs : List Char) : Except Fault (Value × List Char) :=
  let (negative, body) := match cs with
    | '-' :: rest => (true, rest)
    | _ => (false, cs)
  match takeWhole body with
  | ([], _) => .error .malformed
  | (whole, rest) =>
    let (fraction, rest) := takeFraction rest
    let (exponent, rest) := takeExponent rest
    if fraction.isEmpty && exponent.isNone then
      if Decimal.digitLimit < whole.length then .error (.number (.tooLong whole.length))
      else
        let n : Int := digitsToNat whole
        .ok (.int (if negative then -n else n), rest)
    else
      let e : Int := exponent.getD 0 - fraction.length
      .ok (.float (Decimal.toFloat negative (digitsToNat (whole ++ fraction)) e), rest)

/-- The named values. -/
def namedValues : List (String × Value) :=
  [("null", .null), ("true", .bool true), ("false", .bool false), ("NaN", .float (0.0 / 0.0)),
   ("Infinity", .float (1.0 / 0.0)), ("-Infinity", .float (-1.0 / 0.0))]

/-- Reads a value given by name. -/
def readNamed (cs : List Char) : List (String × Value) → Option (Value × List Char)
  | [] => none
  | (name, v) :: more =>
    match Text.dropStart? name.toList cs with
    | some rest => some (v, rest)
    | none => readNamed cs more

/-- How deep lists and mappings may lie in each other. -/
def nestingLimit : Nat := 988

mutual

/-- Reads one value. The first argument bounds the number of steps and the second one the depth to
which lists and mappings may still lie in each other. -/
def readValue : Nat → Nat → List Char → Except Fault (Value × List Char)
  | 0, _, _ => .error .malformed
  | fuel + 1, depth, cs =>
    match cs with
    | '"' :: rest =>
      match decode rest with
      | some (codes, rest) => .ok (.ofCodes codes, rest)
      | none => .error .malformed
    | '[' :: rest => do
      if depth == 0 then throw .tooDeep
      match skipGaps rest with
      | ']' :: rest => return (.list [], rest)
      | rest =>
        let (items, rest) ← readItems fuel (depth - 1) rest
        return (.list items, rest)
    | '\x7b' :: rest => do
      if depth == 0 then throw .tooDeep
      match skipGaps rest with
      | '\x7d' :: rest => return (.map [], rest)
      | rest =>
        let (fields, rest) ← readFields fuel (depth - 1) [] rest
        return (.map fields, rest)
    | cs =>
      match readNamed cs namedValues with
      | some r => .ok r
      | none => readNumber cs

/-- Reads the items of a list from its first item to its closing bracket. -/
def readItems : Nat → Nat → List Char → Except Fault (List Value × List Char)
  | 0, _, _ => .error .malformed
  | fuel + 1, depth, cs => do
    let (v, rest) ← readValue fuel depth cs
    match skipGaps rest with
    | ']' :: rest => return ([v], rest)
    | ',' :: rest =>
      let (vs, rest) ← readItems fuel depth (skipGaps rest)
      return (v :: vs, rest)
    | _ => throw .malformed

/-- Reads the entries of a mapping from its first key to its closing brace. -/
def readFields : Nat → Nat → List (Value × Value) → List Char →
    Except Fault (List (Value × Value) × List Char)
  | 0, _, _, _ => .error .malformed
  | fuel + 1, depth, done, cs =>
    match cs with
    | '"' :: rest =>
      match decode rest with
      | none => .error .malformed
      | some (key, rest) =>
        match skipGaps rest with
        | ':' :: rest => do
          let (v, rest) ← readValue fuel depth (skipGaps rest)
          let done := Value.insertField done (.ofCodes key) v
          match skipGaps rest with
          | '\x7d' :: rest => return (done, rest)
          | ',' :: rest => readFields fuel depth done (skipGaps rest)
          | _ => throw .malformed
        | _ => .error .malformed
    | _ => .error .malformed

end

/-- Reads a text that holds exactly one value. -/
def parse (cs : List Char) : Except Fault Value := do
  let (v, rest) ← readValue (cs.length + 1) nestingLimit (skipGaps cs)
  if (skipGaps rest).isEmpty then return v else throw .malformed

end StructAtlas.Json
