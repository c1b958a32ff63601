import StructAtlas.Decimal.Number

set_option autoImplicit false

/-!
# Reading floating point numbers

A floating point number is an optional sign, digits with at most one point among or around them, and
an optional exponent. The digits may be those of any script, and blanks may stand around the number.
The infinities and the number that is none are written as words. The result is the nearest number
that can be represented.
-/

namespace StructAtlas.Decimal

/-- The floating point number nearest to `m * 10 ^ e`, negated if asked. -/
def toFloat (negative : Bool) (m : Nat) (e : Int) : Float :=
  let size : Int := (Nat.toDigits 10 m).length + e
  let x : Float :=
    if m == 0 || size < -400 then 0.0
    else if 400 < size then 1.0 / 0.0
    else Float.ofScientific m (e < 0) e.natAbs
  if negative then -x else x

/-- The largest exponent that is told from larger ones. -/
def exponentLimit : Nat := 10000000000000000000

/-- The values of the decimal digits at the beginning of a text, and the text behind them. -/
def takeDecimals (cs : List Char) : List Nat × List Char :=
  ((cs.takeWhile Text.isDecimal).filterMap Text.digitValue?, cs.dropWhile Text.isDecimal)

/-- An exponent with its letter, which ends the text, or nothing. -/
def exponent? : List Char → Option Int
  | [] => some 0
  | e :: cs =>
    let (negative, body) := takeSign cs
    let (ds, rest) := takeDecimals body
    if (e == 'e' || e == 'E') && !ds.isEmpty && rest.isEmpty then
      let n : Int := min (ofDigits 10 ds) exponentLimit
      some (if negative then -n else n)
    else none

/-- The number of digits, a point and an exponent. -/
def scientific? (negative : Bool) (cs : List Char) : Option Float :=
  let (whole, rest) := takeDecimals cs
  let (fraction, rest) := match rest with
    | '.' :: rest => takeDecimals rest
    | rest => ([], rest)
  if whole.isEmpty && fraction.isEmpty then none
  else
    (exponent? rest).map fun e =>
      toFloat negative (ofDigits 10 (whole ++ fraction)) (e - fraction.length)

/-- Reads a floating point number. -/
def readFloat? (text : List Char) : Option Float :=
  let body := (skipMargin (skipMargin text).reverse).reverse
  let (negative, body) := takeSign body
  let word := String.ofList (body.map Char.toLower)
  if word == "inf" || word == "infinity" then some (if negative then -1.0 / 0.0 else 1.0 / 0.0)
  else if word == "nan" then some (0.0 / 0.0)
  else scientific? negative body

end StructAtlas.Decimal
