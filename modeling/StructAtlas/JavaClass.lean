import StructAtlas.JavaType
import StructAtlas.Name
import StructAtlas.Naming

set_option autoImplicit false

/-!
# Java classes

A struct becomes a class with a private field for each field, a constructor without arguments, a
constructor for all fields, and two accessors per field. The classes of one source file share a Java
file; the class named like the file is public. Unsigned numbers need a support class, which is
written once.
-/

namespace StructAtlas

/-- A field with its Java type. -/
structure JavaField where
  declared : Field
  type : JavaType
deriving Repr, DecidableEq

/-- The name of a field. -/
def JavaField.name (f : JavaField) : String :=
  f.declared.name

/-- A class to be written. -/
structure JavaClass where
  name : Name
  fields : List JavaField
deriving Repr, DecidableEq

/-- The package of the generated classes and that of the support class. They come from the settings
as they are, so any value may stand here; an absent or empty package is not declared. -/
structure Packages where
  own : Value
  support : Value

namespace JavaClass

/-- The class of a struct, given the names of the known structs. -/
def ofFields (name : Name) (fields : List Field) (known : List String) : JavaClass :=
  ⟨name, fields.map fun f => ⟨f, JavaType.ofField known f⟩⟩

/-- Whether a field is a list. -/
def needsList (c : JavaClass) : Bool :=
  c.fields.any (·.type.usesList)

/-- Whether a field mentions unsigned numbers. -/
def needsUnsigned (c : JavaClass) : Bool :=
  c.fields.any (·.type.usesUnsigned)

/-- The name of the support class. -/
def supportClass : String := "UnsignedInt"

/-- One level of indentation. -/
def indent : String := "    "

/-- The declaration of a field. -/
def fieldLine (f : JavaField) : String :=
  indent ++ "private " ++ f.type.render ++ " " ++ f.name ++ ";"

/-- A field as a parameter. -/
def parameter (f : JavaField) : String :=
  f.type.render ++ " " ++ f.name

/-- The assignment of a parameter to its field. -/
def assignment (f : JavaField) : String :=
  indent ++ indent ++ "this." ++ f.name ++ " = " ++ f.name ++ ";"

/-- The constructor for all fields, after an empty line; a class without fields has none. -/
def constructorLines (c : JavaClass) : List String :=
  if c.fields.isEmpty then []
  else
    ["",
     indent ++ "public " ++ c.name.shown ++ "(" ++ ", ".intercalate (c.fields.map parameter)
       ++ ") \x7b"]
      ++ c.fields.map assignment ++ [indent ++ "\x7d"]

/-- The accessors of a field, after an empty line. -/
def accessorLines (f : JavaField) : List String :=
  ["",
   indent ++ "public " ++ f.type.render ++ " " ++ Naming.getter f.name ++ "() \x7b return "
     ++ f.name ++ "; \x7d",
   indent ++ "public void " ++ Naming.setter f.name ++ "(" ++ parameter f ++ ") \x7b this."
     ++ f.name ++ " = " ++ f.name ++ "; \x7d"]

/-- The lines of a class. -/
def render (c : JavaClass) (isPublic : Bool) : List String :=
  [(if isPublic then "public class " else "class ") ++ c.name.shown ++ " \x7b"]
    ++ c.fields.map fieldLine ++ (if c.fields.isEmpty then [] else [""])
    ++ [indent ++ "public " ++ c.name.shown ++ "() \x7b\x7d"]
    ++ constructorLines c ++ c.fields.flatMap accessorLines ++ ["\x7d"]

end JavaClass

namespace Packages

/-- The class for lists. -/
def listImport : String := "java.util.List"

/-- Whether classes import the support class. They do if they need it, unless it lives in their own
package. -/
def importsSupport (p : Packages) (classes : List JavaClass) : Bool :=
  classes.any (·.needsUnsigned) && !p.support.same p.own

/-- The imports that classes need, in increasing order. -/
def imports (p : Packages) (classes : List JavaClass) : List String :=
  let lists := if classes.any (·.needsList) then [listImport] else []
  let supports :=
    if p.importsSupport classes then [p.support.text ++ "." ++ JavaClass.supportClass] else []
  (lists ++ supports).mergeSort fun a b => decide (a ≤ b)

/-- The packages that the Java file of some classes mentions. -/
def mentioned (p : Packages) (classes : List JavaClass) : List Value :=
  (if p.own.truthy then [p.own] else []) ++ (if p.importsSupport classes then [p.support] else [])

/-- The declaration of the package, before an empty line. -/
def packageLines (p : Packages) : List String :=
  if p.own.truthy then ["package " ++ p.own.text ++ ";", ""] else []

/-- The import lines, before an empty line. -/
def importLines (p : Packages) (classes : List JavaClass) : List String :=
  let names := p.imports classes
  names.map (fun n => "import " ++ n ++ ";") ++ (if names.isEmpty then [] else [""])

/-- The Java file of some classes; `unit` is the name of the file without extension. -/
def renderUnit (p : Packages) (classes : List JavaClass) (unit : String) : String :=
  "\n".intercalate
    (p.packageLines ++ p.importLines classes
      ++ classes.flatMap fun c => c.render (c.name.same unit) ++ [""])

open JavaClass in
/-- The support class for unsigned numbers of 32 bits, which checks its range. -/
def renderSupport (p : Packages) : String :=
  "\n".intercalate
    ["package " ++ p.support.text ++ ";",
     "",
     "public class " ++ supportClass ++ " \x7b",
     indent ++ "public static final long MIN_VALUE = 0L;",
     indent ++ "public static final long MAX_VALUE = 4294967295L;",
     "",
     indent ++ "private long value;",
     "",
     indent ++ "public " ++ supportClass ++ "(long value) \x7b",
     indent ++ indent ++ "setValue(value);",
     indent ++ "\x7d",
     "",
     indent ++ "public long getValue() \x7b return value; \x7d",
     "",
     indent ++ "public void setValue(long value) \x7b",
     indent ++ indent ++ "if (value < MIN_VALUE || value > MAX_VALUE) \x7b",
     indent ++ indent ++ indent
       ++ "throw new IllegalArgumentException(\"Value must be between 0 and 2^32-1: \" + value);",
     indent ++ indent ++ "\x7d",
     indent ++ indent ++ "this.value = value;",
     indent ++ "\x7d",
     "",
     indent ++ "@Override",
     indent ++ "public String toString() \x7b return String.valueOf(value); \x7d",
     "\x7d",
     ""]

end Packages

end StructAtlas
