import StructAtlas.Markup.Lexer
import StructAtlas.Markup.Tag

set_option autoImplicit false

/-!
# The nodes of a document

A document is made of scalars, lists and mappings. Nodes have numbers, and a list or a mapping
refers to its parts by their numbers. A reference to an anchor is the number of the node with that
anchor, so a node can be part of several others and even of itself. An anchor has to come before its
references and may be set once.

The functions that read nodes call each other. Their first argument bounds the number of calls;
`stepsFor` gives enough for a number of tokens, because at most four calls pass between two tokens.
The second one is how deep lists and mappings may still lie in each other.
-/

namespace StructAtlas.Markup

/-- A node of a document. -/
inductive Node where
  | scalar (tag : Tag) (text : List Nat)
  | list (tag : Tag) (items : List Nat)
  | map (tag : Tag) (fields : List (Nat × Nat))
deriving Repr, DecidableEq, Inhabited

/-- The nodes of a text by their numbers, and the node of its document if it has one. -/
structure Graph where
  nodes : Array Node
  root : Option Nat
deriving Repr

namespace Node

/-- The tag of a node. -/
def tag : Node → Tag
  | .scalar tag _ => tag
  | .list tag _ => tag
  | .map tag _ => tag

/-- The node with another tag. -/
def withTag (tag : Tag) : Node → Node
  | .scalar _ text => .scalar tag text
  | .list _ items => .list tag items
  | .map _ fields => .map tag fields

/-- What the readers of nodes keep: the tokens ahead and the fault behind them, what the handles of
tags stand for, the numbers of the named nodes, and the nodes so far. -/
structure State where
  ahead : List Token
  fault : Option Fault
  handles : List (String × String)
  anchors : List (String × Nat)
  nodes : Array Node

/-- A reader of nodes. -/
abbrev Reads := StateT State (Except Fault)

/-- The text breaks the rules. -/
def fail {α : Type} : Reads α :=
  throw .malformed

/-- The next token; there is none at the end of the text. -/
def peek? : Reads (Option Token) := do
  let s ← get
  match s.ahead, s.fault with
  | t :: _, _ => return some t
  | [], some fault => throw fault
  | [], none => return none

/-- Whether one of some tokens comes next. The end of the text is none of them. -/
def isNext (ts : List Token) : Reads Bool :=
  return (← peek?).any (ts.contains ·)

/-- Drops the next token. -/
def drop : Reads Unit :=
  modify fun s => { s with ahead := s.ahead.tail }

/-- Drops a token if it comes next, and says whether it did. -/
def dropIf (t : Token) : Reads Bool := do
  if ← isNext [t] then
    drop
    return true
  else return false

/-- Drops a token that has to come next. -/
def expect (t : Token) : Reads Unit := do
  if !(← dropIf t) then fail

/-! ## Properties of nodes -/

/-- The handles that need no declaration. -/
def knownHandles : List (String × String) :=
  [("!", "!"), ("!!", Tag.standardStart)]

/-- The full form of a tag. -/
def fullTag (name : TagName) : Reads String := do
  match name.handle with
  | none => return name.suffix
  | some handle =>
    match (← get).handles.lookup handle with
    | some start => return start ++ name.suffix
    | none => fail

/-- An anchor, if one comes next. -/
def takeAnchor : Reads (Option String) := do
  match ← peek? with
  | some (.anchor name) => drop; return some name
  | _ => return none

/-- A tag, if one comes next. -/
def takeTag : Reads (Option TagName) := do
  match ← peek? with
  | some (.tag name) => drop; return some name
  | _ => return none

/-- Anchor and tag of a node, in either order. -/
def takeProperties : Reads (Option String × Option String) := do
  let (anchor, tag) ← do
    match ← takeAnchor with
    | some anchor => pure (some anchor, ← takeTag)
    | none =>
      match ← takeTag with
      | some tag => pure (← takeAnchor, some tag)
      | none => pure (none, none)
  match tag with
  | some name => return (anchor, some (← fullTag name))
  | none => return (anchor, none)

/-- The tag of a scalar. The tag that is a lone exclamation mark leaves the choice to the form. -/
def scalarTag (tag : Option String) (text : List Nat) (plain : Bool) : Tag :=
  match tag with
  | none => if plain then Tag.ofForm (text.map Char.ofNat) else .str
  | some "!" => Tag.ofForm (text.map Char.ofNat)
  | some name => Tag.ofName name

/-- The tag of a list or a mapping, whose own tag is given. -/
def groupTag (tag : Option String) (own : Tag) : Tag :=
  match tag with
  | none => own
  | some "!" => own
  | some name => Tag.ofName name

/-! ## Making nodes -/

/-- Adds a node under a name that has not been given before, if there is one. -/
def add (anchor : Option String) (node : Node) : Reads Nat := do
  let s ← get
  match anchor with
  | none =>
    set { s with nodes := s.nodes.push node }
    return s.nodes.size
  | some name =>
    if s.anchors.any (·.1 == name) then fail
    else
      set { s with nodes := s.nodes.push node, anchors := (name, s.nodes.size) :: s.anchors }
      return s.nodes.size

/-- Adds the node of a place that is left empty. -/
def absent : Reads Nat :=
  add none (.scalar .null [])

/-- Sets the node of a number. -/
def put (id : Nat) (node : Node) : Reads Unit :=
  modify fun s => { s with nodes := s.nodes.setIfInBounds id node }

/-- The node that a reference stands for. -/
def resolve (name : String) : Reads Nat := do
  match (← get).anchors.lookup name with
  | some id => return id
  | none => fail

/-- Adds a list and then reads its items. The list can be referred to from its items. -/
def addList (depth : Nat) (anchor : Option String) (tag : Option String)
    (items : Reads (List Nat)) : Reads Nat := do
  let tag := groupTag tag .seq
  let id ← add anchor (.list tag [])
  if depth == 0 then throw .tooDeep
  put id (.list tag (← items))
  return id

/-- Adds a mapping and then reads its entries. The mapping can be referred to from its entries. -/
def addMap (depth : Nat) (anchor : Option String) (tag : Option String)
    (fields : Reads (List (Nat × Nat))) : Reads Nat := do
  let tag := groupTag tag .map
  let id ← add anchor (.map tag [])
  if depth == 0 then throw .tooDeep
  put id (.map tag (← fields))
  return id

/-! ## Reading nodes -/

/-- Enough steps for a number of tokens. -/
def stepsFor (count : Nat) : Nat :=
  4 * count + 8

mutual

/-- Reads a node. Indented blocks are allowed on request, and so is a list whose dashes are not
indented against the key before it. -/
def node : Nat → Nat → Bool → Bool → Reads Nat
  | 0, _, _, _ => fail
  | steps + 1, depth, blocks, dashes => do
    match ← peek? with
    | some (.reference name) => drop; resolve name
    | _ =>
      let (anchor, tag) ← takeProperties
      content steps depth blocks dashes anchor tag

/-- Reads the content of a node behind its properties. A node may consist of properties only. -/
def content : Nat → Nat → Bool → Bool → Option String → Option String → Reads Nat
  | 0, _, _, _, _, _ => fail
  | steps + 1, depth, blocks, dashes, anchor, tag => do
    let bare : Reads Nat :=
      if anchor.isSome || tag.isSome then add anchor (.scalar (scalarTag tag [] true) []) else fail
    match ← peek? with
    | some (.scalar text plain) => drop; add anchor (.scalar (scalarTag tag text plain) text)
    | some .listOpen =>
      addList depth anchor tag (do drop; flowItems steps (depth - 1) true)
    | some .mapOpen =>
      addMap depth anchor tag (do drop; flowFields steps (depth - 1) true)
    | some .dash =>
      if dashes then addList depth anchor tag (looseItems steps (depth - 1)) else bare
    | some .sequenceStart =>
      if blocks then addList depth anchor tag (do drop; blockItems steps (depth - 1)) else bare
    | some .mappingStart =>
      if blocks then addMap depth anchor tag (do drop; blockFields steps (depth - 1)) else bare
    | _ => bare

/-- Reads the items of an indented list. -/
def blockItems : Nat → Nat → Reads (List Nat)
  | 0, _ => fail
  | steps + 1, depth => do
    if ← dropIf .dash then
      let item ← if ← isNext [.dash, .blockEnd] then absent else node steps depth true false
      return item :: (← blockItems steps depth)
    else
      expect .blockEnd
      return []

/-- Reads the items of a list that is not indented. -/
def looseItems : Nat → Nat → Reads (List Nat)
  | 0, _ => fail
  | steps + 1, depth => do
    if ← dropIf .dash then
      let item ←
        if ← isNext [.dash, .key, .value, .blockEnd] then absent else node steps depth true false
      return item :: (← looseItems steps depth)
    else return []

/-- Reads the entries of an indented mapping. -/
def blockFields : Nat → Nat → Reads (List (Nat × Nat))
  | 0, _ => fail
  | steps + 1, depth => do
    if ← dropIf .key then
      let key ← if ← isNext [.key, .value, .blockEnd] then absent else node steps depth true true
      let value ←
        if ← dropIf .value then
          if ← isNext [.key, .value, .blockEnd] then absent else node steps depth true true
        else absent
      return (key, value) :: (← blockFields steps depth)
    else
      expect .blockEnd
      return []

/-- Reads the entry of a mapping in a list in brackets. -/
def flowPair : Nat → Nat → Reads (List (Nat × Nat))
  | 0, _ => fail
  | steps + 1, depth => do
    drop
    let key ←
      if ← isNext [.value, .comma, .listClose] then absent else node steps depth false false
    let value ←
      if ← dropIf .value then
        if ← isNext [.comma, .listClose] then absent else node steps depth false false
      else absent
    return [(key, value)]

/-- Reads the items of a list in brackets; the flag says that no comma is needed first. -/
def flowItems : Nat → Nat → Bool → Reads (List Nat)
  | 0, _, _ => fail
  | steps + 1, depth, first => do
    if ← dropIf .listClose then return []
    else
      if !first then expect .comma
      if ← isNext [.key] then
        let item ← addMap depth none none (flowPair steps (depth - 1))
        return item :: (← flowItems steps depth false)
      else if ← dropIf .listClose then return []
      else
        let item ← node steps depth false false
        return item :: (← flowItems steps depth false)

/-- Reads the entries of a mapping in braces; the flag says that no comma is needed first. -/
def flowFields : Nat → Nat → Bool → Reads (List (Nat × Nat))
  | 0, _, _ => fail
  | steps + 1, depth, first => do
    if ← dropIf .mapClose then return []
    else
      if !first then expect .comma
      if ← dropIf .key then
        let key ←
          if ← isNext [.value, .comma, .mapClose] then absent else node steps depth false false
        let value ←
          if ← dropIf .value then
            if ← isNext [.comma, .mapClose] then absent else node steps depth false false
          else absent
        return (key, value) :: (← flowFields steps depth false)
      else if ← dropIf .mapClose then return []
      else
        let key ← node steps depth false false
        let value ← absent
        return (key, value) :: (← flowFields steps depth false)

end

/-! ## Reading documents -/

/-- How deep lists and mappings may lie in each other. -/
def nestingLimit : Nat := 488

/-- Reads a node at the outermost level. -/
def outermost : Reads Nat := do
  node (stepsFor (← get).ahead.length) nestingLimit true false

/-- Takes the directives of a document; the first argument bounds their number. At most one of them
states a version, whose main number is one, and no handle is declared twice. The handles declared so
far are given. -/
def takeDirectives : Nat → Bool → List (String × String) → Reads Unit
  | 0, _, _ => fail
  | steps + 1, stated, handles => do
    match ← peek? with
    | some (.directive d) =>
      drop
      match d with
      | .version major =>
        if stated || major != 1 then fail else takeDirectives steps true handles
      | .handle name start =>
        if handles.any (·.1 == name) then fail
        else takeDirectives steps stated ((name, start) :: handles)
      | .other => takeDirectives steps stated handles
    | _ => modify fun s => { s with handles := handles ++ knownHandles }

/-- Reads a document from its directives to its mark and behind it. -/
def explicitDocument : Reads Nat := do
  takeDirectives (stepsFor (← get).ahead.length) false []
  expect .documentStart
  match ← peek? with
  | none => absent
  | some (.directive _) => absent
  | some .documentStart => absent
  | some .documentEnd => absent
  | some _ => outermost

/-- Drops the marks at the end of a document; the first argument bounds their number. -/
def dropEnds : Nat → Reads Unit
  | 0 => return
  | steps + 1 => do if ← dropIf .documentEnd then dropEnds steps

/-- Checks that nothing but end marks follows a document. -/
def finish : Reads Unit := do
  dropEnds (stepsFor (← get).ahead.length)
  match ← peek? with
  | none => return
  | some _ =>
    takeDirectives (stepsFor (← get).ahead.length) false []
    expect .documentStart
    fail

/-- Reads the only document; a text without tokens has none. -/
def document : Reads (Option Nat) := do
  let root ←
    match ← peek? with
    | none => return none
    | some (.directive _) => explicitDocument
    | some .documentStart => explicitDocument
    | some _ => outermost
  finish
  return some root

/-- The nodes of a stream of tokens. -/
def read (s : Stream) : Except Fault Graph := do
  let (root, state) ← document.run ⟨s.tokens, s.fault, knownHandles, [], #[]⟩
  return ⟨state.nodes, root⟩

end Node

end StructAtlas.Markup
