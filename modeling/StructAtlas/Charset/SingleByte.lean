import StructAtlas.Charset.Fault

set_option autoImplicit false

/-!
# Sets of one byte per character

A set of one byte per character is a partial function from bytes to characters. The bytes below 128
are ASCII in all sets here.
-/

namespace StructAtlas.Charset.SingleByte

/-- A set with its decoder's name and the reason it gives for a byte without a character. -/
structure Table where
  codec : String
  reason : String
  char? : UInt8 → Option Char

/-- ASCII. -/
def ascii : Table where
  codec := "ascii"
  reason := "ordinal not in range(128)"
  char? b := if b < 0x80 then some (Char.ofNat b.toNat) else none

/-- Latin-1. -/
def latin1 : Table where
  codec := "latin-1"
  reason := "ordinal not in range(256)"
  char? b := some (Char.ofNat b.toNat)

/-- The code points of the bytes 0x80 to 0x9f in the Western Windows set; zero marks a gap. -/
def windowsBlock : List Nat :=
  [0x20ac, 0, 0x201a, 0x192, 0x201e, 0x2026, 0x2020, 0x2021, 0x2c6, 0x2030, 0x160, 0x2039, 0x152,
    0, 0x17d, 0, 0, 0x2018, 0x2019, 0x201c, 0x201d, 0x2022, 0x2013, 0x2014, 0x2dc, 0x2122, 0x161,
    0x203a, 0x153, 0, 0x17e, 0x178]

/-- The Western Windows set: Latin-1 with letters and marks in place of the second control block. -/
def windowsLatin : Table where
  codec := "charmap"
  reason := "character maps to <undefined>"
  char? b :=
    if 0x80 ≤ b && b ≤ 0x9f then
      match windowsBlock[b.toNat - 0x80]? with
      | some 0 => none
      | some n => some (Char.ofNat n)
      | none => none
    else some (Char.ofNat b.toNat)

/-- Decodes bytes at position `pos`. -/
def decodeFrom (table : Table) (pos : Nat) : List UInt8 → Except DecodeFault (List Char)
  | [] => .ok []
  | b :: bs =>
    match table.char? b with
    | some c => (decodeFrom table (pos + 1) bs).map (c :: ·)
    | none => .error ⟨table.codec, pos, 1, b, table.reason⟩

/-- Decodes bytes. -/
def decode (table : Table) (bs : List UInt8) : Except DecodeFault (List Char) :=
  decodeFrom table 0 bs

end StructAtlas.Charset.SingleByte
