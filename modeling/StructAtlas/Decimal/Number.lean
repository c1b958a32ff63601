import StructAtlas.Text.Digit
import StructAtlas.Text.Split

set_option autoImplicit false

/-!
# Reading whole numbers

A whole number is an optional sign and a run of digits of any script, in which single underscores
may separate digits. In base sixteen, eight and two the digits may follow a mark such as `0x`.
Blanks around the number are allowed. Decimal numbers of more than `digitLimit` digits are refused,
whatever their value and whatever follows them.
-/

namespace StructAtlas.Decimal

/-- The most digits a written decimal number may have. -/
def digitLimit : Nat := 4300

/-- Why a text is not a whole number. -/
inductive NumberFault where
  | malformed (base : Nat) (text : String)
  | tooLong (digits : Nat)
deriving Repr, DecidableEq

/-- Blanks that may stand around a number. The four information separators are none. -/
def isMargin (c : Char) : Bool :=
  Text.isBlank c && !(0x1c ≤ c.toNat && c.toNat ≤ 0x1f)

/-- The text after the blanks before it. -/
def skipMargin (cs : List Char) : List Char :=
  cs.dropWhile isMargin

/-- The value of a digit in a base of at most sixteen. -/
def digitIn? (base : Nat) (c : Char) : Option Nat :=
  ((Text.digitValue? c).or (Text.hexValue? c)).filter (· < base)

/-- The digits at the beginning of a text, in which single underscores separate digits, and the text
behind them. The flag says that a digit has to follow. -/
def takeDigits (base : Nat) : Bool → List Char → Option (List Nat × List Char)
  | needDigit, [] => if needDigit then none else some ([], [])
  | needDigit, c :: cs =>
    if c == '_' then if needDigit then none else takeDigits base true cs
    else
      match digitIn? base c with
      | some d => (takeDigits base false cs).map fun r => (d :: r.1, r.2)
      | none => if needDigit then none else some ([], c :: cs)

/-- An optional sign and the text after it. -/
def takeSign : List Char → Bool × List Char
  | '-' :: cs => (true, cs)
  | '+' :: cs => (false, cs)
  | cs => (false, cs)

/-- The letter that marks a base, in lower case. -/
def baseMark? (base : Nat) : Option Char :=
  if base == 16 then some 'x'
  else if base == 8 then some 'o'
  else if base == 2 then some 'b'
  else none

/-- The text after the mark of a base, if it begins with one. An underscore may follow the mark. -/
def dropBaseMark (base : Nat) : List Char → List Char
  | zero :: mark :: cs =>
    if Text.digitValue? zero == some 0 && baseMark? base == some mark.toLower then
      if cs.head? == some '_' then cs.tail else cs
    else zero :: mark :: cs
  | cs => cs

/-- The number that digits in a base stand for, the most significant first. -/
def ofDigits (base : Nat) (ds : List Nat) : Nat :=
  ds.foldl (fun n d => n * base + d) 0

/-- Reads a whole number in a base. -/
def readIn (base : Nat) (text : List Char) : Except NumberFault Int :=
  let (negative, body) := takeSign (skipMargin text)
  match takeDigits base true (dropBaseMark base body) with
  | none => .error (.malformed base (String.ofList text))
  | some (ds, rest) =>
    if base == 10 && digitLimit < ds.length then .error (.tooLong ds.length)
    else if !rest.all isMargin then .error (.malformed base (String.ofList text))
    else .ok (if negative then -(ofDigits base ds : Int) else ofDigits base ds)

/-- Reads a decimal number. -/
def readInt (text : List Char) : Except NumberFault Int :=
  readIn 10 text

end StructAtlas.Decimal
