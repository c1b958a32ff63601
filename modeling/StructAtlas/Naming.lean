import StructAtlas.Path
import StructAtlas.Text.Uppercase

set_option autoImplicit false

/-!
# Names in the generated code

Accessors are named for their field, with its first character in upper case. A generated file is
named for its source file; if that name is taken, the source's extension is added, and if that is
taken too, a number from two on.
-/

namespace StructAtlas.Naming

/-- A name with its first character in upper case. -/
def capitalize (name : String) : String :=
  String.ofList (Text.upperFirst name.toList)

/-- The name of the method that reads a field. -/
def getter (field : String) : String :=
  "get" ++ capitalize field

/-- The name of the method that sets a field. -/
def setter (field : String) : String :=
  "set" ++ capitalize field

/-- The extension of generated files. -/
def sourceExtension : String := ".java"

/-- The first free name with a number from `n` on, among `fuel` numbers. -/
def numbered (base extension : String) (used : List String) : Nat → Nat → String
  | 0, n => base ++ "_" ++ toString n ++ extension
  | fuel + 1, n =>
    let name := base ++ "_" ++ toString n ++ extension
    if used.contains name then numbered base extension used fuel (n + 1) else name

/-- The name of the file generated for a source file, different from all names in use. -/
def outputFile (source : String) (used : List String) (extension : String) : String :=
  let path := Path.parse source
  let plain := path.stem ++ extension
  if !used.contains plain then plain
  else
    let base := path.stem ++ "_" ++ (if path.extension.isEmpty then "src" else path.extension)
    if !used.contains (base ++ extension) then base ++ extension
    else numbered base extension used used.length 2

end StructAtlas.Naming
