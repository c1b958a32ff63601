import StructAtlas.Charset.Fault

set_option autoImplicit false

/-!
# UTF-16

Two bytes make a unit, in one of two orders. A high unit and a low unit together make a character
beyond the basic plane; a high unit without a low one, a low unit without a high one before it, and
an odd byte at the end are refused.
-/

namespace StructAtlas.Charset.Utf16

/-- The order of the two bytes of a unit. -/
inductive Order where
  | little
  | big
deriving Repr, DecidableEq

/-- The decoder's name for an order. -/
def Order.codec : Order → String
  | .little => "utf-16-le"
  | .big => "utf-16-be"

/-- The unit made of two bytes. -/
def Order.unit : Order → UInt8 → UInt8 → Nat
  | .little, a, b => b.toNat * 0x100 + a.toNat
  | .big, a, b => a.toNat * 0x100 + b.toNat

/-- The first unit of a pair. -/
def isHigh (n : Nat) : Bool :=
  0xd800 ≤ n && n ≤ 0xdbff

/-- The second unit of a pair. -/
def isLow (n : Nat) : Bool :=
  0xdc00 ≤ n && n ≤ 0xdfff

/-- Decodes bytes at position `pos`. -/
def decodeFrom (order : Order) (pos : Nat) : List UInt8 → Except DecodeFault (List Char)
  | [] => .ok []
  | [a] => .error ⟨order.codec, pos, 1, a, "truncated data"⟩
  | a :: b :: rest =>
    let n := order.unit a b
    if isLow n then .error ⟨order.codec, pos, 2, a, "illegal encoding"⟩
    else if isHigh n then
      match rest with
      | c :: d :: rest =>
        let m := order.unit c d
        if isLow m then
          (decodeFrom order (pos + 4) rest).map
            (Char.ofNat (0x10000 + (n - 0xd800) * 0x400 + (m - 0xdc00)) :: ·)
        else .error ⟨order.codec, pos, 2, a, "illegal UTF-16 surrogate"⟩
      | short => .error ⟨order.codec, pos, short.length + 2, a, "unexpected end of data"⟩
    else (decodeFrom order (pos + 2) rest).map (Char.ofNat n :: ·)

/-- Decodes bytes of a known order. -/
def decode (order : Order) (bs : List UInt8) : Except DecodeFault (List Char) :=
  decodeFrom order 0 bs

/-- Decodes bytes whose order is given by a mark in front, and is little endian without a mark. -/
def decodeMarked : List UInt8 → Except DecodeFault (List Char)
  | 0xff :: 0xfe :: rest => decodeFrom .little 2 rest
  | 0xfe :: 0xff :: rest => decodeFrom .big 2 rest
  | bs => decode .little bs

end StructAtlas.Charset.Utf16
