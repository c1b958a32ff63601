set_option autoImplicit false

/-!
# Bytes written in base 64

Four characters of an alphabet of sixty-four stand for three bytes. Characters outside the alphabet
are passed over. Equal signs fill up the last group; when they do, all that follows them is ignored.
A group that is neither complete nor filled up is an error.
-/

namespace StructAtlas.Text.Base64

/-- The value of a character of the alphabet. -/
def index? (c : Char) : Option Nat :=
  if 'A' ≤ c && c ≤ 'Z' then some (c.toNat - 'A'.toNat)
  else if 'a' ≤ c && c ≤ 'z' then some (c.toNat - 'a'.toNat + 26)
  else if '0' ≤ c && c ≤ '9' then some (c.toNat - '0'.toNat + 52)
  else if c == '+' then some 62
  else if c == '/' then some 63
  else none

/-- The bytes of a text. Given are the values of the characters of the group that has begun, the
last one first, and the number of equal signs behind them. -/
def decodeFrom : List Nat → Nat → List Char → Option (List UInt8)
  | group, _, [] => if group.isEmpty then some [] else none
  | group, pads, c :: cs =>
    if c == '=' then
      if group.length < 2 then decodeFrom group pads cs
      else if 4 ≤ group.length + pads + 1 then some []
      else decodeFrom group (pads + 1) cs
    else
      match index? c, group with
      | none, _ => decodeFrom group pads cs
      | some n, [] => decodeFrom [n] 0 cs
      | some n, last :: before =>
        let byte := match before with
          | [] => last * 4 + n / 16
          | [_] => last % 16 * 16 + n / 4
          | _ => last % 4 * 64 + n
        let group := if before.length < 2 then n :: last :: before else []
        (decodeFrom group 0 cs).map (UInt8.ofNat byte :: ·)

/-- The bytes of a text. -/
def decode? (cs : List Char) : Option (List UInt8) :=
  decodeFrom [] 0 cs

end StructAtlas.Text.Base64
