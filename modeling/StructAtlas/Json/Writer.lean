import StructAtlas.Json.Escape
import StructAtlas.Value

set_option autoImplicit false

/-!
# Writing JSON

`compact` writes a value on one line. `indented` writes every item of a list and every entry of a
mapping on a line of its own, two spaces deeper than the bracket around it; empty lists and mappings
stay on one line. Neither ends its output with a line feed. A pair is written as a list. Other
values that the format does not know are written as texts in their plain form, and so are keys.
-/

namespace StructAtlas.Json

/-- A text, or the plain form of another value as a text. -/
def quotedText : Value → List Char
  | .brokenText codes => encodeCodes codes
  | v => encode v.text.toList

/-- The text of a floating point number. -/
def floatText (x : Float) : String :=
  match Decimal.ofFloat x with
  | "nan" => "NaN"
  | "inf" => "Infinity"
  | "-inf" => "-Infinity"
  | s => s

/-- A key as a text. Truth values, the absent value and floating point numbers are written as they
are elsewhere. -/
def keyText : Value → List Char
  | .null => encode "null".toList
  | .bool b => encode (if b then "true" else "false").toList
  | .float x => encode (floatText x).toList
  | v => quotedText v

mutual

/-- Writes a value on one line. -/
def compact : Value → List Char
  | .null => "null".toList
  | .bool b => if b then "true".toList else "false".toList
  | .int n => (toString n).toList
  | .float x => (floatText x).toList
  | .str s => encode s.toList
  | .pair first second => '[' :: compact first ++ ',' :: ' ' :: compact second ++ [']']
  | .list items => '[' :: compactItems items ++ [']']
  | .map fields => '\x7b' :: compactFields fields ++ ['\x7d']
  | v => quotedText v

/-- The items of a list, separated by commas. -/
def compactItems : List Value → List Char
  | [] => []
  | [v] => compact v
  | v :: vs => compact v ++ ',' :: ' ' :: compactItems vs

/-- The entries of a mapping, separated by commas. -/
def compactFields : List (Value × Value) → List Char
  | [] => []
  | [(k, v)] => keyText k ++ ':' :: ' ' :: compact v
  | (k, v) :: fs =>
    keyText k ++ ':' :: ' ' :: compact v ++ ',' :: ' ' :: compactFields fs

end

/-- A line feed and the indentation of a nesting level. -/
def newLine (level : Nat) : List Char :=
  '\n' :: List.replicate (2 * level) ' '

mutual

/-- Writes a value whose bracket stands at a nesting level. -/
def indentedAt (level : Nat) : Value → List Char
  | .list [] => ['[', ']']
  | .list items =>
    '[' :: newLine (level + 1) ++ indentedItems (level + 1) items ++ newLine level ++ [']']
  | .map [] => ['\x7b', '\x7d']
  | .map fields =>
    '\x7b' :: newLine (level + 1) ++ indentedFields (level + 1) fields ++ newLine level ++ ['\x7d']
  | v => compact v

/-- The items of a list at their own level. -/
def indentedItems (level : Nat) : List Value → List Char
  | [] => []
  | [v] => indentedAt level v
  | v :: vs => indentedAt level v ++ ',' :: newLine level ++ indentedItems level vs

/-- The entries of a mapping at their own level. -/
def indentedFields (level : Nat) : List (Value × Value) → List Char
  | [] => []
  | [(k, v)] => keyText k ++ ':' :: ' ' :: indentedAt level v
  | (k, v) :: fs =>
    keyText k ++ ':' :: ' ' :: indentedAt level v ++ ',' :: newLine level
      ++ indentedFields level fs

end

/-- Writes a value over several lines. -/
def indented (v : Value) : List Char :=
  indentedAt 0 v

end StructAtlas.Json
