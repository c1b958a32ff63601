import StructAtlas.Value

set_option autoImplicit false

/-!
# The order of sets

The items of a set of whole numbers are listed by the slots of a table in which they are kept. The
number of slots is a power of two, eight at least and more than twice the number of items from five
items on. An item goes to the slot that its residue names. If that is taken, the slots behind it are
tried as long as the table is long enough, and then other slots in a sequence that depends on the
residue. Other sets are listed in insertion order.
-/

namespace StructAtlas.Markup.SlotTable

/-- The modulus of residues. -/
def modulus : Nat := 2305843009213693951

/-- The residue of a whole number, which has its sign, as an unsigned word. Minus one has the
residue of minus two. -/
def residue (n : Int) : Nat :=
  let r := n.natAbs % modulus
  if n < 0 && r != 0 then 18446744073709551616 - (if r == 1 then 2 else r) else r

/-- The number of slots for a number of items; the first argument bounds the doublings. -/
def sizeFrom (count : Nat) : Nat → Nat → Nat
  | 0, size => size
  | fuel + 1, size => if size ≤ 2 * count then sizeFrom count fuel (2 * size) else size

/-- The number of slots for a number of items. -/
def sizeFor (count : Nat) : Nat :=
  if count < 5 then 8 else sizeFrom count count 8

/-- How many slots behind a slot are tried. -/
def reach : Nat := 9

/-- A free slot among those tried at a place. -/
def freeAt? (slots : Array (Option Value)) (place : Nat) : Option Nat :=
  let count := if place + reach < slots.size then reach + 1 else 1
  ((List.range count).map (place + ·)).find? fun i => (slots.getD i none).isNone

/-- The slot of an item whose residue is shifted step by step; the first argument bounds the steps.
-/
def slotFrom (slots : Array (Option Value)) : Nat → Nat → Nat → Option Nat
  | 0, _, _ => none
  | fuel + 1, place, shifted =>
    match freeAt? slots place with
    | some i => some i
    | none =>
      let shifted := shifted / 32
      slotFrom slots fuel ((place * 5 + 1 + shifted) % slots.size) shifted

/-- Puts an item into the table. -/
def insert (slots : Array (Option Value)) (item : Value) : Array (Option Value) :=
  let r := residue (item.whole?.getD 0)
  match slotFrom slots (slots.size * 16 + 16) (r % slots.size) r with
  | some i => slots.setIfInBounds i (some item)
  | none => slots

/-- Whether an item is a whole number. -/
def isWhole : Value → Bool
  | .bool _ => true
  | .int _ => true
  | _ => false

/-- The items of a set in the order in which they are listed. -/
def order (items : List Value) : List Value :=
  if items.all isWhole then
    (items.foldl insert (Array.replicate (sizeFor items.length) none)).toList.filterMap id
  else items

end StructAtlas.Markup.SlotTable
