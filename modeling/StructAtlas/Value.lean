import StructAtlas.Calendar
import StructAtlas.Decimal.Number
import StructAtlas.Decimal.Shortest
import StructAtlas.Text.Wide

set_option autoImplicit false

/-!
# Dynamic values

What a report or a configuration file holds before it is checked. A mapping keeps its keys in
insertion order and its keys are pairwise different in the sense of `Value.same`; a set keeps its
items in insertion order as well. A collection that holds itself is cut where it comes again.

`Value.display` is the display form, in which texts are quoted; `Value.text` is the plain form,
which shows a text as it is. Whole numbers with too many digits have neither, see
`Value.isShowable`.
-/

namespace StructAtlas

/-- A value whose kind is only known when the program runs. A broken text holds code points that are
no characters. The last two stand where a list or a mapping comes again in itself. -/
inductive Value where
  | null
  | bool (b : Bool)
  | int (n : Int)
  | float (x : Float)
  | str (s : String)
  | brokenText (codes : List Nat)
  | bytes (bs : List UInt8)
  | date (d : Calendar.Date)
  | moment (m : Calendar.Moment)
  | pair (first second : Value)
  | list (items : List Value)
  | set (items : List Value)
  | map (fields : List (Value × Value))
  | listAgain
  | mapAgain
deriving Inhabited

namespace Value

/-- A mapping with text keys. -/
def record (fields : List (String × Value)) : Value :=
  .map (fields.map fun f => (.str f.1, f.2))

/-- The value of a text. -/
def ofWide : WideText → Value
  | .plain s => .str s
  | .broken codes _ => .brokenText codes

/-- A list of texts. -/
def texts (ts : List WideText) : Value :=
  .list (ts.map .ofWide)

/-- The text of code points. -/
def ofCodes (codes : List Nat) : Value :=
  .ofWide (.ofCodes codes)

/-- The text of a value that is one. -/
def wide? : Value → Option WideText
  | .str s => some (.plain s)
  | .brokenText codes => some (.ofCodes codes)
  | _ => none

/-- The code points of a text. -/
def codes? : Value → Option (List Nat)
  | .str s => some (Text.codes s.toList)
  | .brokenText codes => some codes
  | _ => none

theorem codes?_ofWide (w : WideText) : (Value.ofWide w).codes? = some w.codes := by
  cases w <;> rfl

theorem codes?_ofCodes (codes : List Nat) : (Value.ofCodes codes).codes? = some codes := by
  rw [Value.ofCodes, codes?_ofWide, WideText.codes_ofCodes]

/-- Whether a value counts as present: absent, false, zero and empty values do not. -/
def truthy : Value → Bool
  | .null => false
  | .bool b => b
  | .int n => n != 0
  | .float x => x != 0.0
  | .str s => !s.isEmpty
  | .bytes bs => !bs.isEmpty
  | .list items => !items.isEmpty
  | .set items => !items.isEmpty
  | .map fields => !fields.isEmpty
  | _ => true

/-! ## Forms -/

/-- One byte of a text of bytes enclosed by `quote`. Only ASCII is shown as it is. -/
def escapeByte (quote : Char) (b : UInt8) : List Char :=
  if b < 0x80 then Text.escapeChar quote (Char.ofNat b.toNat) else Text.codePointEscape b.toNat

/-- The display form of a text of bytes. -/
def displayBytes (bs : List UInt8) : List Char :=
  let quote := Text.quoteFor (bs.map fun b => Char.ofNat b.toNat)
  'b' :: quote :: bs.flatMap (escapeByte quote) ++ [quote]

mutual

/-- The display form of a value. -/
def display : Value → String
  | .null => "None"
  | .bool b => if b then "True" else "False"
  | .int n => toString n
  | .float x => Decimal.ofFloat x
  | .str s => Text.quote s
  | .brokenText codes => String.ofList (Text.quotedCodes codes)
  | .bytes bs => String.ofList (displayBytes bs)
  | .date d => d.display
  | .moment m => m.display
  | .pair first second => "(" ++ display first ++ ", " ++ display second ++ ")"
  | .list items => "[" ++ displayItems items ++ "]"
  | .set [] => "set()"
  | .set items => "\x7b" ++ displayItems items ++ "\x7d"
  | .map fields => "\x7b" ++ displayFields fields ++ "\x7d"
  | .listAgain => "[...]"
  | .mapAgain => "\x7b...\x7d"

/-- The display forms of items, separated by commas. -/
def displayItems : List Value → String
  | [] => ""
  | [v] => display v
  | v :: vs => display v ++ ", " ++ displayItems vs

/-- The display forms of mapping entries, separated by commas. -/
def displayFields : List (Value × Value) → String
  | [] => ""
  | [(k, v)] => display k ++ ": " ++ display v
  | (k, v) :: fs => display k ++ ": " ++ display v ++ ", " ++ displayFields fs

end

/-- The plain form of a value: texts as they are, dates and moments in their own plain form, and all
else in its display form. -/
def text : Value → String
  | .str s => s
  | .brokenText codes => String.ofList (codes.map Text.characterOf)
  | .date d => d.text
  | .moment m => m.text
  | v => v.display

/-- Whether the plain form of a value is made of characters. -/
def isEncodable : Value → Bool
  | .brokenText _ => false
  | _ => true

/-- The least size that a whole number cannot be shown at. -/
def showLimit : Nat :=
  Decimal.tenPow Decimal.digitLimit

mutual

/-- Whether a value has a display form: no whole number in it has too many digits. -/
def isShowable : Value → Bool
  | .int n => decide (n.natAbs < showLimit)
  | .pair first second => isShowable first && isShowable second
  | .list items => areShowable items
  | .set items => areShowable items
  | .map fields => areShowableFields fields
  | _ => true

/-- Whether all items have a display form. -/
def areShowable : List Value → Bool
  | [] => true
  | v :: vs => isShowable v && areShowable vs

/-- Whether all entries have a display form. -/
def areShowableFields : List (Value × Value) → Bool
  | [] => true
  | (k, v) :: fs => isShowable k && isShowable v && areShowableFields fs

end

/-! ## Equality -/

/-- The whole number that a truth value or a number stands for in comparisons. -/
def whole? : Value → Option Int
  | .bool b => some (if b then 1 else 0)
  | .int n => some n
  | .float x => (Decimal.Binary.ofFloat x).whole?
  | _ => none

/-- Equality of values that hold no other values. Numbers and truth values are compared by numeric
value. -/
def sameAtom : Value → Value → Bool
  | .null, .null => true
  | .str a, .str b => a == b
  | .brokenText a, .brokenText b => a == b
  | .bytes a, .bytes b => a == b
  | .date a, .date b => a == b
  | .moment a, .moment b => a.same b
  | .float x, .float y => x == y
  | a, b =>
    match a.whole?, b.whole? with
    | some m, some n => m == n
    | _, _ => false

mutual

/-- Equality of values. Lists are compared item by item, sets and mappings without regard to order.
-/
def same : Value → Value → Bool
  | .pair a b, .pair c d => same a c && same b d
  | .list as, .list bs => sameItems as bs
  | .set as, .set bs => as.length == bs.length && as.all fun a => bs.any (sameAtom a)
  | .map as, .map bs => as.length == bs.length && sameFields as bs
  | a, b => sameAtom a b

/-- Equality of lists, item by item. -/
def sameItems : List Value → List Value → Bool
  | [], [] => true
  | a :: as, b :: bs => same a b && sameItems as bs
  | _, _ => false

/-- Every entry of the first mapping has an equal entry in the second one. -/
def sameFields : List (Value × Value) → List (Value × Value) → Bool
  | [], _ => true
  | (k, v) :: fs, gs => (gs.any fun g => same k g.1 && same v g.2) && sameFields fs gs

end

/-- Whether two values are the same key. The number that is none equals nothing, but it is the same
key as itself. -/
def sameKey : Value → Value → Bool
  | .float x, .float y => x == y || (x.isNaN && y.isNaN)
  | a, b => a.same b

/-- Sets the value of a key; a new key goes to the end and a known key keeps its place. -/
def insertField {α : Type} (fields : List (Value × α)) (k : Value) (v : α) : List (Value × α) :=
  match fields with
  | [] => [(k, v)]
  | (k', v') :: fs => if k'.sameKey k then (k', v) :: fs else (k', v') :: insertField fs k v

/-- The value of a key in a list of entries. -/
def findField? {α : Type} (fields : List (Value × α)) (k : String) : Option α :=
  (fields.find? fun f => f.1.same (.str k)).map (·.2)

/-- The value of a key, if the value is a mapping that has it. -/
def field? (v : Value) (k : String) : Option Value :=
  match v with
  | .map fields => findField? fields k
  | _ => none

end Value

end StructAtlas
