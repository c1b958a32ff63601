import StructAtlas.Decimal.Number
import StructAtlas.Text.Wide

set_option autoImplicit false

/-!
# Places in source files

A location is a path relative to the source root and a line number. Its text form is `path:line`;
the path may hold colons itself, so reading splits at the last colon. The line number may be written
with the digits of any script and with leading zeros. A place that a report lists may have a path
with code points that are no characters.
-/

namespace StructAtlas

/-- A line of a source file, counted from one. The path is relative to the source root. -/
structure Location where
  path : WideText
  line : Int
deriving Repr, DecidableEq, Inhabited

namespace Location

/-- The text form `path:line`. -/
def toText (l : Location) : WideText :=
  l.path.append (":" ++ toString l.line)

/-- The text form in characters, as messages show it. -/
def shown (l : Location) : String :=
  l.toText.shown

/-- Why a text is not a location: the colon, the path or the digits are missing, or the digits are
no number that can be read. -/
inductive Fault where
  | malformed (text : WideText)
  | line (fault : Decimal.NumberFault)
deriving Repr, DecidableEq

/-- The number of a run of characters that look like digits. -/
def readLine (digits : List Char) : Except Decimal.NumberFault Nat :=
  let decimals := digits.takeWhile Text.isDecimal
  if Decimal.digitLimit < decimals.length then .error (.tooLong decimals.length)
  else
    match Text.digitsValue? digits 0 with
    | some n => .ok n
    | none => .error (.malformed 10 (String.ofList digits))

/-- Reads a location from its text form. -/
def parse (text : WideText) : Except Fault Location :=
  match Text.splitLast? ':'.toNat text.codes with
  | some (path, behind) =>
    let digits := behind.map Text.characterOf
    if path.isEmpty || digits.isEmpty || !digits.all Text.isDigitLike then .error (.malformed text)
    else
      match readLine digits with
      | .ok n => .ok ⟨.ofCodes path, n⟩
      | .error fault => .error (.line fault)
  | none => .error (.malformed text)

end Location

/-- The message for a quoted text that is no whole number in a base. At most 200 characters of it
are shown. -/
def Decimal.literalMessage (base : Nat) (quoted : List Char) : String :=
  "invalid literal for int() with base " ++ toString base ++ ": " ++ String.ofList (quoted.take 200)

/-- The message for a text that is not a whole number. -/
def Decimal.NumberFault.message : Decimal.NumberFault → String
  | .malformed base text => Decimal.literalMessage base (Text.quoted text.toList)
  | .tooLong digits =>
    "Exceeds the limit (4300 digits) for integer string conversion: value has " ++ toString digits
      ++ " digits; use sys.set_int_max_str_digits() to increase the limit"

/-- The message for a text that is not a location. -/
def Location.Fault.message : Location.Fault → String
  | .malformed text => "잘못된 위치 형식: " ++ text.quoted
  | .line fault => fault.message

end StructAtlas
