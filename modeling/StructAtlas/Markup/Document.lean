import StructAtlas.Markup.Atom
import StructAtlas.Markup.Node
import StructAtlas.Markup.SlotTable

set_option autoImplicit false

/-!
# Documents

A document gives every node that its root leads to what the node stands for. Scalars are read at
once. Lists and mappings come into being empty and are filled one level after the other, so a
collection can hold itself. Faults of outer levels therefore come before those of inner ones.

Keys are scalars. The last of several equal keys wins and keeps the place of the first one. The key
`<<` merges the entries of other mappings; entries of the mapping itself win over merged ones. A
mapping with the key `=` may stand where a scalar is needed.

`Document.valueAt` writes a part of a document out as a value.
-/

namespace StructAtlas.Markup

/-- What a node stands for. Parts of collections are given by the numbers of their nodes. -/
inductive Thing where
  | atom (value : Value)
  | list (items : List Nat)
  | pairs (items : List (Nat × Nat))
  | set (items : List Value)
  | map (fields : List (Value × Nat))
deriving Inhabited

/-- The outcome of reading a text with a document in it. -/
structure Document where
  things : Array (Option Thing)
  root : Nat

namespace Document

/-- What the builders of a document keep: the nodes, what they stand for so far, the collections to
be filled, the last one first, and the number of merging keys at the beginning. No step adds one. -/
structure State where
  nodes : Array Node
  things : Array (Option Thing)
  waiting : List Nat
  merges : Nat

/-- A builder of a document. -/
abbrev Builds := StateT State (Except Fault)

/-- The node of a number. -/
def nodeAt (id : Nat) : Builds Node :=
  return (← get).nodes.getD id (.scalar .other [])

/-- Sets the node of a number. -/
def putNode (id : Nat) (node : Node) : Builds Unit :=
  modify fun s => { s with nodes := s.nodes.setIfInBounds id node }

/-- The tag of the node of a number. -/
def tagAt (id : Nat) : Builds Tag :=
  return (← nodeAt id).tag

/-- What the node of a number stands for. -/
def thingAt (id : Nat) : Builds (Option Thing) :=
  return (← get).things.getD id none

/-- Sets what the node of a number stands for. -/
def putThing (id : Nat) (thing : Thing) : Builds Unit :=
  modify fun s => { s with things := s.things.setIfInBounds id (some thing) }

/-! ## Merging mappings -/

/-- The entries of a mapping. -/
def fieldsAt (id : Nat) : Builds (List (Nat × Nat)) := do
  match ← nodeAt id with
  | .map _ fields => return fields
  | _ => throw .malformed

/-- The items of a list. -/
def itemsAt (id : Nat) : Builds (List Nat) := do
  match ← nodeAt id with
  | .list _ items => return items
  | _ => throw .malformed

/-- Sets the entries of a mapping. -/
def putFields (id : Nat) (fields : List (Nat × Nat)) : Builds Unit := do
  putNode id (.map (← tagAt id) fields)

/-- The entries before the first one that merges, the value of that one, and the entries behind it.
-/
def findMerge : List (Nat × Nat) → Builds (Option (List (Nat × Nat) × Nat × List (Nat × Nat)))
  | [] => return none
  | (key, value) :: rest => do
    if (← tagAt key) == .merge then return some ([], value, rest)
    else return (← findMerge rest).map fun r => ((key, value) :: r.1, r.2)

/-- Turns the marks for default values among the keys of a mapping into texts. -/
def settleMarks (fields : List (Nat × Nat)) : Builds Unit :=
  fields.forM fun f => do
    let node ← nodeAt f.1
    if node.tag == .value then putNode f.1 (node.withTag .str)

/-- Replaces the keys of a mapping that merge other mappings by the entries of those. Of a list of
mappings an earlier one wins. The first argument bounds the number of merging keys; the last one
holds the entries merged so far. -/
def merge : Nat → Nat → List (Nat × Nat) → Builds Unit
  | 0, _, _ => throw .malformed
  | fuel + 1, id, merged => do
    let fields ← fieldsAt id
    match ← findMerge fields with
    | none =>
      settleMarks fields
      putFields id (merged ++ fields)
    | some (before, value, behind) =>
      putFields id (before ++ behind)
      match ← nodeAt value with
      | .map .. =>
        merge fuel value []
        merge fuel id (merged ++ (← fieldsAt value))
      | .list _ items =>
        let more ← items.mapM fun item => do
          merge fuel item []
          fieldsAt item
        merge fuel id (merged ++ more.reverse.flatten)
      | .scalar .. => throw .malformed

/-- The number of keys that merge other mappings. -/
def countMerges (nodes : Array Node) : Nat :=
  nodes.foldl
    (fun n node =>
      match node with
      | .map _ fields => n + fields.countP fun f => (nodes[f.1]?).any (·.tag == .merge)
      | _ => n)
    0

/-- The entries of a mapping, in which other mappings are merged. -/
def mergedFieldsAt (id : Nat) : Builds (List (Nat × Nat)) := do
  merge ((← get).merges + 1) id []
  fieldsAt id

/-! ## Building -/

/-- The value of the first key that marks a default value. -/
def defaultAmong : List (Nat × Nat) → Builds (Option Nat)
  | [] => return none
  | (key, value) :: rest => do
    if (← tagAt key) == .value then return some value else defaultAmong rest

/-- The text of a scalar, or of the default value of a mapping. The first argument bounds how often
defaults lead to each other. -/
def textAt : Nat → Nat → Builds (List Nat)
  | 0, _ => throw .tooDeep
  | fuel + 1, id => do
    match ← nodeAt id with
    | .scalar _ text => return text
    | .list .. => throw .malformed
    | .map _ fields =>
      match ← defaultAmong fields with
      | some value => textAt fuel value
      | none => throw .malformed

/-- The value without parts that a node stands for. A date has to be a scalar itself. -/
def atomAt (id : Nat) : Builds Value := do
  let text ← textAt ((← get).nodes.size + 1) id
  match ← nodeAt id with
  | .map .timestamp _ => throw .dateKind
  | node => Atom.read node.tag text

/-- The collection that a tag begins with. -/
def emptyThing? : Tag → Option Thing
  | .seq => some (.list [])
  | .omap => some (.pairs [])
  | .pairs => some (.pairs [])
  | .set => some (.set [])
  | .map => some (.map [])
  | _ => none

/-- Begins what a node stands for, unless that has been done. -/
def start (id : Nat) : Builds Unit := do
  if (← thingAt id).isNone then
    let tag ← tagAt id
    match emptyThing? tag with
    | some thing =>
      putThing id thing
      modify fun s => { s with waiting := id :: s.waiting }
    | none =>
      if tag == .merge || tag == .value || tag == .other then throw .malformed
      putThing id (.atom (← atomAt id))

/-- The key that a node stands for. -/
def keyAt (id : Nat) : Builds Value := do
  start id
  match ← thingAt id with
  | some (.atom value) => return value
  | _ => throw .malformed

/-- The entries of a mapping in the order in which they are set. -/
def entriesAt (id : Nat) : Builds (List (Value × Nat)) := do
  let fields ← mergedFieldsAt id
  let entries ← fields.mapM fun f => do
    let key ← keyAt f.1
    start f.2
    return (key, f.2)
  return entries.foldl (fun fs e => Value.insertField fs e.1 e.2) []

/-- The pair that a mapping with one entry stands for. -/
def pairAt (id : Nat) : Builds (Nat × Nat) := do
  match ← fieldsAt id with
  | [(key, value)] =>
    start key
    start value
    return (key, value)
  | _ => throw .malformed

/-- Fills the collection of a node. -/
def fill (id : Nat) : Builds Unit := do
  match ← thingAt id with
  | some (.list _) =>
    let items ← itemsAt id
    items.forM start
    putThing id (.list items)
  | some (.pairs _) => putThing id (.pairs (← (← itemsAt id).mapM pairAt))
  | some (.set _) => putThing id (.set (SlotTable.order ((← entriesAt id).map (·.1))))
  | some (.map _) => putThing id (.map (← entriesAt id))
  | _ => return

/-- Fills collections level by level; the argument bounds the number of levels. -/
def fillAll : Nat → Builds Unit
  | 0 => return
  | fuel + 1 => do
    let ids := (← get).waiting.reverse
    if !ids.isEmpty then
      modify fun s => { s with waiting := [] }
      ids.forM fill
      fillAll fuel

/-- The document of a graph. -/
def ofGraph (nodes : Array Node) (root : Nat) : Except Fault Document := do
  let build : Builds Unit := do
    start root
    fillAll (nodes.size + 1)
  let (_, state) ← build.run ⟨nodes, Array.replicate nodes.size none, [], countMerges nodes⟩
  return ⟨state.things, root⟩

/-! ## Looking at documents -/

/-- The value of a node. The first argument bounds the depth and the second one lists the
collections around the node; where one of them comes again, the value is cut. -/
def unrolled (d : Document) : Nat → List Nat → Nat → Value
  | 0, _, _ => .null
  | fuel + 1, path, id =>
    let part := d.unrolled fuel (id :: path)
    match d.things.getD id none, path.contains id with
    | some (.atom value), _ => value
    | some (.list items), false => .list (items.map part)
    | some (.pairs items), false => .list (items.map fun p => .pair (part p.1) (part p.2))
    | some (.set items), _ => .set items
    | some (.map fields), false => .map (fields.map fun f => (f.1, part f.2))
    | some (.list _), true => .listAgain
    | some (.pairs _), true => .listAgain
    | some (.map _), true => .mapAgain
    | none, _ => .null

/-- The value of a node. -/
def valueAt (d : Document) (id : Nat) : Value :=
  d.unrolled (d.things.size + 1) [] id

/-- Whether the document is the absent value. -/
def isNull (d : Document) : Bool :=
  match d.things.getD d.root none with
  | some (.atom .null) => true
  | _ => false

/-- The entries of a document that is a mapping, given by the numbers of their nodes. -/
def fields? (d : Document) : Option (List (Value × Nat)) :=
  match d.things.getD d.root none with
  | some (.map fields) => some fields
  | _ => none

/-- Sets the value of a key of a document that is a mapping. -/
def put (d : Document) (key : String) (value : Value) : Document :=
  match d.fields? with
  | some fields =>
    let fields := Value.insertField fields (.str key) d.things.size
    ⟨(d.things.setIfInBounds d.root (some (.map fields))).push (some (.atom value)), d.root⟩
  | none => d

/-- The document with no entries. -/
def empty : Document :=
  ⟨#[some (.map [])], 0⟩

end Document

/-- Reads the document of a text, if the text holds one. -/
def parse (cs : List Char) : Except Fault (Option Document) := do
  let graph ← Node.read (tokens cs)
  match graph.root with
  | some root => return some (← Document.ofGraph graph.nodes root)
  | none => return none

end StructAtlas.Markup
