import StructAtlas.Declaration.Shape

set_option autoImplicit false

/-!
# From candidate to declaration

A rule names a shape and says which names of that shape may serve as the name of the declaration,
the preferred one first. Rules are tried in order; the first rule whose shape is the whole candidate
and which finds a name that is not empty decides. A rule may ask for a name that its shape does not
have; that is a fault of the rule, and it only shows when the name is looked up.
-/

namespace StructAtlas

/-- The name of a declaration and its shape. -/
structure Declaration where
  name : String
  shape : Shape
deriving Repr, DecidableEq

/-- A shape with the slots that may name the declaration. -/
structure Rule where
  shape : Shape
  slots : List String
deriving Repr, DecidableEq

/-- A rule asks for a slot that its shape does not have. -/
structure UnknownSlot where
  slot : String
deriving Repr, DecidableEq

namespace Rule

/-- A typedef is named by its alias, or else by its tag; every other shape by its tag. -/
def ofShape : Shape → Rule
  | .typedef => ⟨.typedef, ["alias", "tag"]⟩
  | s => ⟨s, ["tag"]⟩

/-- The default rules, in order of priority. -/
def defaults : List Rule :=
  [ofShape .typedef, ofShape .tagged, ofShape .packed, ofShape .forward]

/-- The content of a slot. Only a typedef has an alias. -/
def slot (s : Shape) (parts : NamedParts) (slot : String) : Except UnknownSlot (List Char) :=
  if slot == "tag" then .ok parts.tag
  else if slot == "alias" && s == .typedef then .ok parts.typeName
  else .error ⟨slot⟩

/-- The first slot that is not empty. -/
def firstName (s : Shape) (parts : NamedParts) :
    List String → Except UnknownSlot (Option String)
  | [] => .ok none
  | name :: more => do
    let content ← slot s parts name
    if content.isEmpty then firstName s parts more else return some (String.ofList content)

/-- The name that a rule gives to a candidate, if the candidate has the rule's shape. -/
def nameOf (r : Rule) (content : List Char) : Except UnknownSlot (Option String) :=
  match r.shape.readWhole content with
  | some parts => firstName r.shape parts r.slots
  | none => .ok none

end Rule

/-- The declaration that the first fitting rule makes of a candidate. -/
def disambiguate : List Rule → List Char → Except UnknownSlot (Option Declaration)
  | [], _ => .ok none
  | r :: rules, content => do
    match ← r.nameOf content with
    | some name => return some ⟨name, r.shape⟩
    | none => disambiguate rules content

end StructAtlas
