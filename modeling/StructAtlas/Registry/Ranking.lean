import StructAtlas.Registry

set_option autoImplicit false

/-!
# Names that cannot be ranked

Entries with equally many places are ranked by name, and a text has no order with a number. The
ranking compares entries in a fixed sequence and stops at the first two that have no order.

The sequence is that of an insertion by halving. First the entries are followed as long as they are
in order, or in reverse order, from the beginning. Then every further entry finds its place among
the earlier ones by comparison with the middle of what is left.
-/

namespace StructAtlas.Registry

/-- Two names that have no order, in the order in which they were compared. -/
structure Clash where
  first : Name
  second : Name
deriving Repr, DecidableEq

/-- Whether an entry is ranked strictly before another one. -/
def comesBefore (a b : Entry) : Except Clash Bool :=
  if a.total != b.total then .ok (b.total < a.total)
  else if a.name.same b.name then .ok false
  else if a.name.areComparable b.name then .ok (a.name.less b.name)
  else .error ⟨a.name, b.name⟩

/-- The entries at the beginning, each of which is or is not ranked before the one ahead of it, as
the flag says, and the others. The last entry taken is given. -/
def takeRun (falling : Bool) : Entry → List Entry → Except Clash (List Entry × List Entry)
  | _, [] => .ok ([], [])
  | last, e :: es => do
    if (← comesBefore e last) == falling then
      let (run, rest) ← takeRun falling e es
      return (e :: run, rest)
    else return ([], e :: es)

/-- The place of an entry among ranked ones, found between two bounds; the first argument bounds the
number of comparisons. -/
def placeOf (e : Entry) (ranked : Array Entry) : Nat → Nat → Nat → Except Clash Nat
  | 0, low, _ => .ok low
  | fuel + 1, low, high =>
    if low < high then do
      let middle := low + (high - low) / 2
      match ranked[middle]? with
      | none => return low
      | some other =>
        if ← comesBefore e other then placeOf e ranked fuel low middle
        else placeOf e ranked fuel (middle + 1) high
    else .ok low

/-- Inserts entries one after the other. -/
def insertAll : List Entry → Array Entry → Except Clash (Array Entry)
  | [], ranked => .ok ranked
  | e :: es, ranked => do
    let place ← placeOf e ranked ranked.size 0 ranked.size
    insertAll es (ranked.insertIdxIfInBounds place e)

/-- Goes through the comparisons of a ranking. -/
def compareAll : List Entry → Except Clash (Array Entry)
  | [] => .ok #[]
  | [e] => .ok #[e]
  | e :: e' :: es => do
    let falling ← comesBefore e' e
    let (run, rest) ← takeRun falling e' es
    let run := e :: e' :: run
    insertAll rest (if falling then run.reverse else run).toArray

/-- The first two names in the way of a ranking. -/
def clash? (r : Registry) : Option Clash :=
  match compareAll r.entries with
  | .ok _ => none
  | .error clash => some clash

/-- The first `n` entries of the ranking, if the entries can be ranked. -/
def rank (r : Registry) (n : Int) : Except Clash (List Entry) :=
  match r.clash? with
  | none => .ok (r.top n)
  | some clash => .error clash

end StructAtlas.Registry
