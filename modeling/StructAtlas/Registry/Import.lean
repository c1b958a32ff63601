import StructAtlas.Registry
import StructAtlas.Value

set_option autoImplicit false

/-!
# Reading a registry back

`Registry.ofValue` reads the structured form of a registry. Entries with the same name are merged,
places that occur twice are kept once, and counts are recomputed: a stored count that differs from
the recomputed one is noted and otherwise ignored.

Place lists may be absent. They are usually lists; a text stands for the list of its characters and
a mapping for the list of its keys. A name is a text, a number or a truth value; a list or a mapping
cannot identify an entry.
-/

namespace StructAtlas

/-- Why a value is not the structured form of a registry. -/
inductive ImportFault where
  | noDefinitions
  | noName (index : Nat)
  | compoundName
  | placesNotList
  | placeNotText
  | place (fault : Location.Fault)
deriving Repr, DecidableEq

/-- The message of a fault. -/
def ImportFault.message : ImportFault → String
  | .noDefinitions => "'definitions' 리스트가 없습니다"
  | .noName index => "항목 " ++ toString index ++ ": 'name' 이 없습니다"
  | .compoundName => "the name of an entry cannot be a list or a mapping"
  | .placesNotList => "the places of an entry have to be a list"
  | .placeNotText => "a place has to be a text"
  | .place fault => fault.message

/-- A stored count that differs from the actual number of places. -/
structure CountMismatch where
  name : Name
  stored : Value
  actual : Nat

/-- The note about a stored count. -/
def CountMismatch.message (m : CountMismatch) : String :=
  m.name.shown ++ ": 저장된 count " ++ m.stored.text ++ " → 재계산 " ++ toString m.actual

/-- Whether the note can be written: the name and the stored count have plain forms. -/
def CountMismatch.isShowable (m : CountMismatch) : Bool :=
  m.name.toValue.isShowable && m.stored.isShowable

namespace Registry

/-- The items of a place list. -/
def placeItems : Option Value → Except ImportFault (List Value)
  | none => .ok []
  | some v =>
    if !v.truthy then .ok []
    else
      match v with
      | .list items => .ok items
      | .str s => .ok (s.toList.map fun c => .str (String.singleton c))
      | .brokenText codes => .ok (codes.map fun n => .ofCodes [n])
      | .map fields => .ok (fields.map (·.1))
      | _ => .error .placesNotList

/-- Reads one place. -/
def readPlace (v : Value) : Except ImportFault Location :=
  match v.wide? with
  | some text => (Location.parse text).mapError .place
  | none => .error .placeNotText

/-- Reads places and adds them one after the other. -/
def addPlaces (add : Registry → Location → Registry) :
    List Value → Registry → Except ImportFault Registry
  | [], r => .ok r
  | v :: vs, r => do
    let l ← readPlace v
    addPlaces add vs (add r l)

/-- The name of an item. -/
def itemName (index : Nat) (item : Value) : Except ImportFault Name :=
  match item.field? "name" with
  | some name =>
    if !name.truthy then .error (.noName index)
    else
      match Name.ofValue? name with
      | some name => .ok name
      | none => .error .compoundName
  | none => .error (.noName index)

/-- Reads one item into a registry. -/
def addItem (index : Nat) (item : Value) (r : Registry) :
    Except ImportFault (Name × Registry) := do
  let name ← itemName index item
  let r := r.ensure name
  let definitions ← placeItems (item.field? "definitionFiles")
  let r ← addPlaces (fun r l => (r.addDefinition name l).1) definitions r
  let usages ← placeItems (item.field? "usageFiles")
  let r ← addPlaces (fun r l => (r.addUsage name l).1) usages r
  return (name, r)

/-- The number of places of a name. -/
def totalOf (r : Registry) (name : Name) : Nat :=
  match r.get? name with
  | some e => e.total
  | none => 0

/-- The note about the stored count of an item, if it is wrong. -/
def countNote (item : Value) (name : Name) (r : Registry) : List CountMismatch :=
  match item.field? "count" with
  | none => []
  | some .null => []
  | some stored =>
    let actual := r.totalOf name
    if stored.same (.int actual) then [] else [⟨name, stored, actual⟩]

/-- Reads items into a registry, noting wrong counts. The notes made before a fault are kept. -/
def addItems : Nat → List Value → Registry → List CountMismatch × Except ImportFault Registry
  | _, [], r => ([], .ok r)
  | index, item :: items, r =>
    match addItem index item r with
    | .error fault => ([], .error fault)
    | .ok (name, r) =>
      let rest := addItems (index + 1) items r
      (countNote item name r ++ rest.1, rest.2)

/-- The list of items of a structured form. -/
def itemsOf (v : Value) : Except ImportFault (List Value) :=
  match v.field? "definitions" with
  | some (.list items) => .ok items
  | _ => .error .noDefinitions

/-- Reads the structured form of a registry, with notes about wrong counts. -/
def readValue (v : Value) : List CountMismatch × Except ImportFault Registry :=
  match itemsOf v with
  | .ok items => addItems 0 items empty
  | .error fault => ([], .error fault)

/-- Reads the structured form of a registry. -/
def ofValue (v : Value) : Except ImportFault Registry :=
  (readValue v).2

end Registry

end StructAtlas
