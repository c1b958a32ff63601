import StructAtlas.Charset.Fault

set_option autoImplicit false

/-!
# UTF-8

`encode` writes every character in its shortest form. `decode` accepts exactly such bytes: no longer
forms, no surrogates, nothing beyond the last code point. It refuses the longest beginning of a
sequence that could still have been completed, and the bytes of an unfinished sequence at the end
together.
-/

namespace StructAtlas.Charset.Utf8

/-- A byte that continues a sequence, with six payload bits. -/
def tailByte (n : Nat) : UInt8 :=
  UInt8.ofNat (0x80 + n % 0x40)

/-- The bytes of one character. -/
def encodeChar (c : Char) : List UInt8 :=
  let n := c.toNat
  if n < 0x80 then [UInt8.ofNat n]
  else if n < 0x800 then [UInt8.ofNat (0xc0 + n / 0x40), tailByte n]
  else if n < 0x10000 then
    [UInt8.ofNat (0xe0 + n / 0x1000), tailByte (n / 0x40), tailByte n]
  else
    [UInt8.ofNat (0xf0 + n / 0x40000), tailByte (n / 0x1000), tailByte (n / 0x40), tailByte n]

/-- The bytes of a text. -/
def encode (cs : List Char) : List UInt8 :=
  cs.flatMap encodeChar

/-- Whether a byte continues a sequence. -/
def isTail (b : UInt8) : Bool :=
  0x80 ≤ b && b ≤ 0xbf

/-- Whether a byte may follow a given first byte. Sequences of three and four bytes restrict their
second byte to keep out longer forms, surrogates and numbers beyond the last code point. -/
def isSecond (first b : UInt8) : Bool :=
  if first == 0xe0 then 0xa0 ≤ b && b ≤ 0xbf
  else if first == 0xed then 0x80 ≤ b && b ≤ 0x9f
  else if first == 0xf0 then 0x90 ≤ b && b ≤ 0xbf
  else if first == 0xf4 then 0x80 ≤ b && b ≤ 0x8f
  else isTail b

/-- The payload of a continuing byte. -/
def payload (b : UInt8) : Nat :=
  b.toNat - 0x80

/-- How the bytes at the front of a text are read. -/
inductive Step where
  | char (c : Char) (width : Nat)
  | refuse (count : Nat) (reason : String)

/-- The first byte cannot begin a character. -/
def badStart : Step := .refuse 1 "invalid start byte"

/-- The byte behind the given number of good ones does not continue the character. -/
def badTail (good : Nat) : Step := .refuse good "invalid continuation byte"

/-- The text ends inside a character, whose beginning has the given length. -/
def cut (good : Nat) : Step := .refuse good "unexpected end of data"

/-- Reads a character of two bytes. -/
def two (a : UInt8) : List UInt8 → Step
  | [] => cut 1
  | b :: _ =>
    if isTail b then .char (Char.ofNat ((a.toNat - 0xc0) * 0x40 + payload b)) 2 else badTail 1

/-- Reads a character of three bytes. -/
def three (a : UInt8) : List UInt8 → Step
  | [] => cut 1
  | b :: rest =>
    if !isSecond a b then badTail 1
    else
      match rest with
      | [] => cut 2
      | c :: _ =>
        if isTail c then
          .char (Char.ofNat ((a.toNat - 0xe0) * 0x1000 + payload b * 0x40 + payload c)) 3
        else badTail 2

/-- Reads a character of four bytes. -/
def four (a : UInt8) : List UInt8 → Step
  | [] => cut 1
  | b :: rest =>
    if !isSecond a b then badTail 1
    else
      match rest with
      | [] => cut 2
      | c :: rest =>
        if !isTail c then badTail 2
        else
          match rest with
          | [] => cut 3
          | d :: _ =>
            if isTail d then
              .char (Char.ofNat
                ((a.toNat - 0xf0) * 0x40000 + payload b * 0x1000 + payload c * 0x40 + payload d)) 4
            else badTail 3

/-- Reads the character that begins with byte `a`. -/
def step (a : UInt8) (rest : List UInt8) : Step :=
  if a < 0x80 then .char (Char.ofNat a.toNat) 1
  else if a < 0xc2 then badStart
  else if a < 0xe0 then two a rest
  else if a < 0xf0 then three a rest
  else if a < 0xf5 then four a rest
  else badStart

/-- Decodes bytes at position `pos`; the first number counts the bytes of the last character that
are still ahead. -/
def decodeFrom : Nat → Nat → List UInt8 → Except DecodeFault (List Char)
  | _, _, [] => .ok []
  | pending + 1, pos, _ :: bs => decodeFrom pending (pos + 1) bs
  | 0, pos, b :: bs =>
    match step b bs with
    | .char c width => (decodeFrom (width - 1) (pos + 1) bs).map (c :: ·)
    | .refuse count reason => .error ⟨"utf-8", pos, count, b, reason⟩

/-- Decodes bytes. -/
def decode (bs : List UInt8) : Except DecodeFault (List Char) :=
  decodeFrom 0 0 bs

/-- The bytes of a text. -/
def bytesOf (s : String) : List UInt8 :=
  encode s.toList

end StructAtlas.Charset.Utf8
