import StructAtlas.Text.Digit
import StructAtlas.Text.Quoted

set_option autoImplicit false

/-!
# Texts in JSON

`encode` writes a text between double quotes. Only the double quote, the backslash and the control
characters below the space are escaped; all other characters stand for themselves. `decode` reads
the text after its opening quote and returns its code points and what follows the closing quote. It
accepts every escape of the format, including pairs of escapes for one character beyond the basic
plane. Half of such a pair stays a code point of its own, which is no character.
-/

namespace StructAtlas.Json

/-- One character of a quoted text. -/
def encodeChar (c : Char) : List Char :=
  if c == '"' then ['\\', '"']
  else if c == '\\' then ['\\', '\\']
  else if c == '\n' then ['\\', 'n']
  else if c == '\r' then ['\\', 'r']
  else if c == '\t' then ['\\', 't']
  else if c.toNat == 0x8 then ['\\', 'b']
  else if c.toNat == 0xc then ['\\', 'f']
  else if c.toNat < 0x20 then '\\' :: 'u' :: Text.hexDigits 4 c.toNat
  else [c]

/-- A text between double quotes. -/
def encode (cs : List Char) : List Char :=
  '"' :: cs.flatMap encodeChar ++ ['"']

/-- A text of code points between double quotes. A code point that is no character is escaped. -/
def encodeCodes (codes : List Nat) : List Char :=
  let one (n : Nat) : List Char :=
    if n.isValidChar then encodeChar (Char.ofNat n) else '\\' :: 'u' :: Text.hexDigits 4 n
  '"' :: codes.flatMap one ++ ['"']

/-- The number written by four hexadecimal digits. -/
def hexFour? (a b c d : Char) : Option Nat := do
  return (← Text.hexValue? a) * 0x1000 + (← Text.hexValue? b) * 0x100
    + (← Text.hexValue? c) * 0x10 + (← Text.hexValue? d)

/-- The character that a one-letter escape stands for. -/
def simpleEscape? (c : Char) : Option Char :=
  if c == '"' || c == '\\' || c == '/' then some c
  else if c == 'n' then some '\n'
  else if c == 'r' then some '\r'
  else if c == 't' then some '\t'
  else if c == 'b' then some '\x08'
  else if c == 'f' then some '\x0c'
  else none

/-- The first unit of a pair that encodes a character beyond the basic plane. -/
def isHighUnit (n : Nat) : Bool :=
  0xd800 ≤ n && n ≤ 0xdbff

/-- The second unit of such a pair. -/
def isLowUnit (n : Nat) : Bool :=
  0xdc00 ≤ n && n ≤ 0xdfff

/-- The code point of a pair of units. -/
def pairCode (high low : Nat) : Nat :=
  0x10000 + (high - 0xd800) * 0x400 + (low - 0xdc00)

/-- Reads a text up to its closing quote. -/
def decode : List Char → Option (List Nat × List Char)
  | [] => none
  | '"' :: rest => some ([], rest)
  | '\\' :: 'u' :: a :: b :: c :: d :: '\\' :: 'u' :: a' :: b' :: c' :: d' :: rest =>
    match hexFour? a b c d, hexFour? a' b' c' d' with
    | some high, some low =>
      if isHighUnit high && isLowUnit low then
        (decode rest).map fun r => (pairCode high low :: r.1, r.2)
      else
        (decode ('\\' :: 'u' :: a' :: b' :: c' :: d' :: rest)).map fun r => (high :: r.1, r.2)
    | _, _ => none
  | '\\' :: 'u' :: a :: b :: c :: d :: rest =>
    match hexFour? a b c d with
    | some n => (decode rest).map fun r => (n :: r.1, r.2)
    | none => none
  | '\\' :: e :: rest =>
    match simpleEscape? e with
    | some c => (decode rest).map fun r => (c.toNat :: r.1, r.2)
    | none => none
  | c :: rest =>
    if c == '\\' || c.toNat < 0x20 then none
    else (decode rest).map fun r => (c.toNat :: r.1, r.2)

end StructAtlas.Json
