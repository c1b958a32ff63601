import StructAtlas.Charset.Catalog
import StructAtlas.Charset.SingleByte
import StructAtlas.Charset.Utf16
import StructAtlas.Charset.Utf8

set_option autoImplicit false

/-!
# Decoding by the name of a character set

No bytes decode to no text under every name, known or not. Otherwise the name has to be that of a
character set. A fault of the name is kept apart from a fault of the bytes, because only the latter
lets another character set be tried. A decoder can also give up with an error of another kind.

The decoders of the most usual sets are in this library. Those of all other sets are a parameter, a
`Charset.Library`. The text of a set is made of characters; decoders that also give halves of pairs
of a text in 16 bit units, as that of escape sequences does, are left out.
-/

namespace StructAtlas.Charset

/-- Why bytes cannot be decoded: they are not allowed in the set, the name belongs to no set or to a
transformation between bytes, the decoder gave up with an error of a kind and a reason, or the name
holds a null character. -/
inductive Fault where
  | bytes (fault : DecodeFault)
  | unknown (name : String)
  | notText (name : String)
  | failed (codec kind reason : String)
  | nullCharacter
deriving Repr, DecidableEq

/-- The message of a fault. -/
def Fault.message : Fault → String
  | .bytes fault => fault.message
  | .unknown name => "unknown encoding: " ++ name
  | .notText name =>
    "'" ++ name ++ "' is not a text encoding; use codecs.decode() to handle arbitrary codecs"
  | .failed codec kind reason =>
    "decoding with '" ++ codec ++ "' codec failed (" ++ kind ++ ": " ++ reason ++ ")"
  | .nullCharacter => "embedded null character"

/-- What turns bytes into characters. -/
abbrev Decoder := List UInt8 → Except Fault (List Char)

/-- The decoders of the sets that have none here, by their normalised names. -/
abbrev Library := String → Decoder

/-- A library without decoders. -/
def noLibrary : Library := fun name _ =>
  .error (.failed name "NotImplementedError" "there is no decoder")

/-- Decodes UTF-8 behind an optional mark. -/
def decodeUtf8Marked : List UInt8 → Except DecodeFault (List Char)
  | 0xef :: 0xbb :: 0xbf :: rest => Utf8.decode rest
  | bs => Utf8.decode bs

/-- The decoder of a set, for the sets that have one here. -/
def decoder? : Charset → Option (List UInt8 → Except DecodeFault (List Char))
  | .utf8 => some Utf8.decode
  | .utf8Marked => some decodeUtf8Marked
  | .latin1 => some (SingleByte.decode SingleByte.latin1)
  | .ascii => some (SingleByte.decode SingleByte.ascii)
  | .windowsLatin => some (SingleByte.decode SingleByte.windowsLatin)
  | .utf16 => some Utf16.decodeMarked
  | .utf16Little => some (Utf16.decode .little)
  | .utf16Big => some (Utf16.decode .big)
  | _ => none

/-- The decoder of a name. -/
def decoderOf (library : Library) (name : String) : Decoder := fun bs =>
  if name.toList.contains '\x00' then .error .nullCharacter
  else
    match find? name with
    | none => .error (.unknown name)
    | some .undefined => .error (.failed "undefined" "UnicodeError" "undefined encoding")
    | some .binary => .error (.notText name)
    | some charset =>
      match charset.decoder? with
      | some decoder => (decoder bs).mapError .bytes
      | none => library (normalize name.toList) bs

/-- A decoder with the name that it was asked for by. -/
structure Codec where
  name : String
  decoder : Decoder

namespace Codec

/-- The decoder of a name. -/
def named (library : Library) (name : String) : Codec :=
  ⟨name, decoderOf library name⟩

/-- UTF-8. -/
def utf8 : Codec :=
  ⟨"utf-8", fun bs => (Utf8.decode bs).mapError .bytes⟩

/-- Latin-1. -/
def latin1 : Codec :=
  ⟨"latin-1", fun bs => (SingleByte.decode SingleByte.latin1 bs).mapError .bytes⟩

/-- Decodes bytes. Without bytes the decoder is not looked at. -/
def decode (codec : Codec) (bs : List UInt8) : Except Fault (List Char) :=
  if bs.isEmpty then .ok [] else codec.decoder bs

end Codec

end StructAtlas.Charset
