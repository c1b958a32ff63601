import StructAtlas.Text.Quoted

set_option autoImplicit false

/-!
# Bytes that cannot be decoded

A decoder stops at the first bytes that its character set does not allow and says which bytes these
are and why it refuses them.
-/

namespace StructAtlas.Charset

/-- The first bytes that a decoder refuses. -/
structure DecodeFault where
  codec : String
  start : Nat
  count : Nat
  byte : UInt8
  reason : String
deriving Repr, DecidableEq

/-- The message of a decoder; a single byte is shown by its value. -/
def DecodeFault.message (f : DecodeFault) : String :=
  let subject :=
    if f.count == 1 then
      "byte 0x" ++ String.ofList (Text.hexDigits 2 f.byte.toNat) ++ " in position "
        ++ toString f.start
    else
      "bytes in position " ++ toString f.start ++ "-" ++ toString (f.start + f.count - 1)
  "'" ++ f.codec ++ "' codec can't decode " ++ subject ++ ": " ++ f.reason

end StructAtlas.Charset
