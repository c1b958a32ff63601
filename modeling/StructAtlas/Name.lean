import StructAtlas.Value

set_option autoImplicit false

/-!
# Names of structs

The name of a struct in a source file is a text. A report that was written by hand may use numbers
and truth values as names. They identify entries by their numeric value, so `1`, `1.0` and the truth
value for yes are one name, and the form that came first is kept.

Texts are ordered by code points and numbers by size. A text and a number have no order
(`Name.areComparable`).
-/

namespace StructAtlas

/-- The name of a struct. -/
inductive Name where
  | text (s : String)
  | brokenText (codes : List Nat)
  | bool (b : Bool)
  | int (n : Int)
  | float (x : Float)
deriving Repr, DecidableEq, Inhabited

namespace Name

instance : Coe String Name := ⟨.text⟩

/-- The value that a name is written as. -/
def toValue : Name → Value
  | .text s => .str s
  | .brokenText codes => .brokenText codes
  | .bool b => .bool b
  | .int n => .int n
  | .float x => .float x

/-- The name that a value stands for. -/
def ofValue? : Value → Option Name
  | .str s => some (.text s)
  | .brokenText codes => some (.brokenText codes)
  | .bool b => some (.bool b)
  | .int n => some (.int n)
  | .float x => some (.float x)
  | _ => none

theorem ofValue?_toValue (n : Name) : ofValue? n.toValue = some n := by
  cases n <;> rfl

/-- The plain form of a name. -/
def shown (n : Name) : String :=
  n.toValue.text

@[simp]
theorem shown_text (s : String) : (text s).shown = s :=
  rfl

/-- The text of a name that is one. -/
def text? : Name → Option String
  | .text s => some s
  | _ => none

/-- Whether two names identify the same entry. -/
def same (a b : Name) : Bool :=
  a.toValue.sameKey b.toValue

@[simp]
theorem same_text (a b : String) : (text a).same (text b) = (a == b) := by
  simp [same, toValue, Value.sameKey, Value.same, Value.sameAtom]

/-- The kind of a name, as messages call it. -/
def kindName : Name → String
  | .text _ => "str"
  | .brokenText _ => "str"
  | .bool _ => "bool"
  | .int _ => "int"
  | .float _ => "float"

/-- Whether a name is a text of either form. -/
def isText (n : Name) : Bool :=
  n.toValue.codes?.isSome

/-- Whether two names have an order. -/
def areComparable (a b : Name) : Bool :=
  a.isText == b.isText

/-- The size of a number: its side of the finite numbers, and its value as a whole number and the
power of two that divides it. The number that is none has no size. -/
def size? : Name → Option (Int × Int × Nat)
  | .bool b => some (0, if b then 1 else 0, 0)
  | .int n => some (0, n, 0)
  | .float x =>
    let b := Decimal.Binary.ofFloat x
    if b.isUndefined then none
    else if b.isFinite then some (0, b.quotient)
    else some (if b.negative then -1 else 1, 0, 0)
  | _ => none

/-- Whether a number is less than another one. -/
def lessNumber (a b : Name) : Bool :=
  match a.size?, b.size? with
  | some (side, n, scale), some (side', n', scale') =>
    side < side'
      || (side == side' && n * Decimal.twoPow scale' < n' * Decimal.twoPow scale)
  | _, _ => false

/-- The order of names. -/
def less (a b : Name) : Bool :=
  match a, b with
  | .text s, .text t => decide (s < t)
  | a, b =>
    match a.toValue.codes?, b.toValue.codes? with
    | some c, some d => decide (c < d)
    | _, _ => a.lessNumber b

end Name

end StructAtlas
