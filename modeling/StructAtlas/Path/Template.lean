import StructAtlas.Text.Digit
import StructAtlas.Text.Quoted

set_option autoImplicit false

/-!
# Templates of log files

The path of a log file is a template. A field in braces stands for a value, and two braces in a row
stand for one brace. There is one value, the time of the start, and its field is named `time`.
Fields without a name and fields named by a number ask for values by position, and there are none.
Behind the name a field may ask for a part of the value. The time has one part, its instant, and it
has no items.

`parse` checks the form of a whole template before any of its fields is looked at.
-/

namespace StructAtlas.Template

/-- Why a text is no template or cannot be filled in. -/
inductive Fault where
  | loneClose
  | loneOpen
  | unclosed
  | openInName
  | noConversion
  | longConversion
  | unclosedFormat
  | position
  | longPosition
  | unknownField (name : String)
  | emptyPart
  | unknownPart (name : String)
  | noItems
  | unknownConversion (c : Char)
  | tooDeep
deriving Repr, DecidableEq

/-- The message of a fault. -/
def Fault.message : Fault → String
  | .loneClose => "Single '\x7d' encountered in format string"
  | .loneOpen => "Single '\x7b' encountered in format string"
  | .unclosed => "expected '\x7d' before end of string"
  | .openInName => "unexpected '\x7b' in field name"
  | .noConversion => "end of string while looking for conversion specifier"
  | .longConversion => "expected ':' after conversion specifier"
  | .unclosedFormat => "unmatched '\x7b' in format spec"
  | .position => "Format string contains positional fields"
  | .longPosition => "Too many decimal digits in format string"
  | .unknownField name => Text.quote name
  | .emptyPart => "Empty attribute in format string"
  | .unknownPart name => "a time has no part " ++ Text.quote name
  | .noItems => "a time has no items"
  | .unknownConversion c =>
    "Unknown conversion specifier "
      ++ (if '!' ≤ c && c ≤ '~' then String.singleton c
          else "\\x" ++ String.ofList (Nat.toDigits 16 c.toNat))
  | .tooDeep => "Max string recursion exceeded"

/-- A field of a template: what it asks for, the letter of a conversion, and a format. -/
structure Field where
  name : List Char
  conversion : Option Char
  format : List Char
deriving Repr, DecidableEq

/-- A piece of a template. -/
inductive Piece where
  | char (c : Char)
  | field (f : Field)
deriving Repr, DecidableEq

/-! ## Form -/

/-- The name of a field, the character that ends it, and the text behind that. The flag says that a
square bracket is open, in which all characters belong to the name. -/
def takeName : Bool → List Char → Except Fault (List Char × Char × List Char)
  | _, [] => .error .unclosed
  | true, c :: cs => (takeName (c != ']') cs).map fun r => (c :: r.1, r.2)
  | false, c :: cs =>
    if c == '{' then .error .openInName
    else if c == '}' || c == ':' || c == '!' then .ok ([], c, cs)
    else (takeName (c == '[') cs).map fun r => (c :: r.1, r.2)

/-- The format of a field and the text behind the field. The number counts the braces that are open
inside. -/
def takeFormat : Nat → List Char → Except Fault (List Char × List Char)
  | _, [] => .error .unclosedFormat
  | depth, c :: cs =>
    if c == '{' then (takeFormat (depth + 1) cs).map fun r => (c :: r.1, r.2)
    else if c == '}' then
      match depth with
      | 0 => .ok ([], cs)
      | depth + 1 => (takeFormat depth cs).map fun r => (c :: r.1, r.2)
    else (takeFormat depth cs).map fun r => (c :: r.1, r.2)

/-- A field behind its opening brace, and the text behind it. -/
def takeField (cs : List Char) : Except Fault (Field × List Char) := do
  let (name, mark, cs) ← takeName false cs
  if mark == '}' then return (⟨name, none, []⟩, cs)
  else if mark == ':' then
    let (format, cs) ← takeFormat 0 cs
    return (⟨name, none, format⟩, cs)
  else
    match cs with
    | [] => throw .noConversion
    | c :: '}' :: cs => return (⟨name, some c, []⟩, cs)
    | [c] =>
      let (format, cs) ← takeFormat 0 []
      return (⟨name, some c, format⟩, cs)
    | c :: ':' :: cs =>
      let (format, cs) ← takeFormat 0 cs
      return (⟨name, some c, format⟩, cs)
    | _ :: _ :: _ => throw .longConversion

/-- The pieces of a text; the first argument bounds their number. -/
def pieces : Nat → List Char → Except Fault (List Piece)
  | 0, _ => .ok []
  | _ + 1, [] => .ok []
  | fuel + 1, c :: cs =>
    if c == '{' then
      match cs with
      | [] => .error .loneOpen
      | '{' :: cs => (pieces fuel cs).map (.char c :: ·)
      | cs => do
        let (field, cs) ← takeField cs
        return .field field :: (← pieces fuel cs)
    else if c == '}' then
      match cs with
      | '}' :: cs => (pieces fuel cs).map (.char c :: ·)
      | _ => .error .loneClose
    else (pieces fuel cs).map (.char c :: ·)

/-- Reads a template. -/
def parse (cs : List Char) : Except Fault (List Piece) :=
  pieces cs.length cs

/-! ## Filling in -/

/-- The largest position. -/
def positionLimit : Nat := 9223372036854775807

/-- The part of a name that says which value is asked for; the rest asks for parts of the value. -/
def valueName (name : List Char) : List Char :=
  name.takeWhile fun c => c != '.' && c != '['

/-- Whether a name begins with the digits of a position that is too large. -/
def isLongPosition (name : List Char) : Bool :=
  positionLimit < (Text.digitsValue? (name.takeWhile Text.isDecimal) 0).getD 0

/-- The part of the time that a field may ask for. -/
def instantPart : List Char := "datetime".toList

/-- Checks the first part of the value that the rest of a name asks for. -/
def checkPart : List Char → Except Fault Unit
  | '.' :: rest =>
    let part := valueName rest
    if part.isEmpty then .error .emptyPart
    else if part == instantPart then .ok ()
    else .error (.unknownPart (String.ofList part))
  | '[' :: rest =>
    let item := rest.takeWhile (· != ']')
    if isLongPosition item then .error .longPosition
    else if item.isEmpty then .error .emptyPart
    else .error .noItems
  | _ => .ok ()

/-- Checks that a field asks for the value that there is. -/
def check (f : Field) : Except Fault Unit := do
  let name := valueName f.name
  if isLongPosition name then throw .longPosition
  if name.all Text.isDecimal then throw .position
  if name != "time".toList then throw (.unknownField (String.ofList name))
  checkPart (f.name.drop name.length)
  match f.conversion with
  | none => return
  | some c => if ['r', 's', 'a'].contains c then return else throw (.unknownConversion c)

/-- Fills in a template. A format may have fields itself; the first argument bounds how often. -/
def fillWith (time : List Char) : Nat → List Piece → Except Fault (List Char)
  | 0, _ => .error .tooDeep
  | depth + 1, ps => do
    let texts ← ps.mapM fun p =>
      match p with
      | .char c => .ok [c]
      | .field f => do
        check f
        if f.format.contains '{' then
          let _ ← fillWith time depth (← parse f.format)
        return time
    return texts.flatten

/-- Fills in a template that is given as a text. -/
def fill (time : String) (template : String) : Except Fault String := do
  let filled ← fillWith time.toList 2 (← parse template.toList)
  return String.ofList filled

end StructAtlas.Template
