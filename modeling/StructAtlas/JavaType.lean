import StructAtlas.Field

set_option autoImplicit false

/-!
# Java types of fields

A pointer refers to a known struct or to something unknown. Any other field has a base type: one of
three primitive kinds, a known struct, or something unknown; with a repetition it is a list of its
base type. Qualifiers do not matter for the base type.
-/

namespace StructAtlas

/-- The primitive kinds: signed and unsigned numbers of 32 bits, and characters. -/
inductive Primitive where
  | int
  | uint
  | char
deriving Repr, DecidableEq

namespace Primitive

/-- The name of a kind. -/
def name : Primitive → String
  | .int => "int"
  | .uint => "uint"
  | .char => "char"

/-- The kind with a name. -/
def ofName? (name : String) : Option Primitive :=
  [Primitive.int, .uint, .char].find? (·.name == name)

/-- The Java class of a kind. -/
def javaName : Primitive → String
  | .int => "Integer"
  | .uint => "UnsignedInt"
  | .char => "String"

/-- The type words of each kind. -/
def table : List (String × Primitive) :=
  [("int", .int), ("signed", .int), ("signed int", .int), ("int32_t", .int), ("unsigned", .uint),
   ("unsigned int", .uint), ("uint32_t", .uint), ("char", .char)]

/-- The kind of a normalised type. -/
def ofType? (type : String) : Option Primitive :=
  table.lookup type

end Primitive

/-- The qualifiers that do not matter for the type. -/
def ignoredQualifiers : List (List Char) :=
  ["const".toList, "volatile".toList]

/-- Type words without the qualifiers that do not matter, separated by single spaces. -/
def normalizeType (type : String) : String :=
  String.ofList
    ([' '].intercalate ((Text.words type.toList).filter fun w => !ignoredQualifiers.contains w))

/-- The Java type of a field. -/
inductive JavaType where
  | primitive (kind : Primitive)
  | reference (name : String)
  | repeated (element : JavaType)
  | unknown
deriving Repr, DecidableEq

namespace JavaType

/-- A known struct, or something unknown. -/
def ofName (known : List String) (type : String) : JavaType :=
  let name := normalizeType type
  if known.contains name then .reference name else .unknown

/-- The type without pointer and repetition. -/
def base (known : List String) (type : String) : JavaType :=
  match Primitive.ofType? (normalizeType type) with
  | some kind => .primitive kind
  | none => ofName known type

/-- The type of a field, given the names of the known structs. -/
def ofField (known : List String) (f : Field) : JavaType :=
  if f.isPointer then ofName known f.type
  else if f.repetition.isSome then .repeated (base known f.type)
  else base known f.type

/-- The type as Java source. -/
def render : JavaType → String
  | .primitive kind => kind.javaName
  | .reference name => name
  | .repeated element => "List<" ++ element.render ++ ">"
  | .unknown => "Object"

/-- Whether the type is a list. -/
def usesList : JavaType → Bool
  | .repeated _ => true
  | _ => false

/-- Whether the type mentions unsigned numbers. -/
def usesUnsigned : JavaType → Bool
  | .primitive kind => kind == .uint
  | .repeated element => element.usesUnsigned
  | _ => false

end JavaType

end StructAtlas
