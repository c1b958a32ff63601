import StructAtlas.Json.Writer
import StructAtlas.Registry

set_option autoImplicit false

/-!
# Reports of a registry

A registry is written in two forms. The structured form is a mapping with the one key `definitions`,
whose value lists name, count and places of every entry; it can be read back. The text form is meant
for people.
-/

namespace StructAtlas

/-- The structured form of an entry. -/
def Entry.toValue (e : Entry) : Value :=
  .record
    [("name", e.name.toValue), ("count", .int e.total),
     ("definitionFiles", .texts (e.definitions.map Location.toText)),
     ("usageFiles", .texts (e.usages.map Location.toText))]

namespace Registry

/-- The structured form of a registry. -/
def toValue (r : Registry) : Value :=
  .record [("definitions", .list (r.entries.map Entry.toValue))]

/-- The structured form as text. -/
def jsonReport (r : Registry) : String :=
  String.ofList (Json.indented r.toValue)

/-- A list of places in square brackets. -/
def placeList (places : List Location) : String :=
  "[" ++ ", ".intercalate (places.map Location.shown) ++ "]"

/-- The lines of the text form for one entry. -/
def entryLines (e : Entry) : List String :=
  ["Struct: " ++ e.name.shown, "Total References: " ++ toString e.total,
   "Definitions: " ++ placeList e.definitions, "Usages: " ++ placeList e.usages,
   "---------------------"]

/-- The text form of a registry. -/
def textReport (r : Registry) : String :=
  let header := ["Struct Analysis Report", "====================="]
  "\n".intercalate (header ++ r.entries.flatMap entryLines) ++ "\n"

end Registry

end StructAtlas
