import StructAtlas.Path
import StructAtlas.Text.Wide

set_option autoImplicit false

/-!
# A tree of files

The files and directories of a file system, as an association list from component lists to contents.
The root of the file system is always there, and it is its own parent. A path with a root is
followed from there, any other one from the working directory.

What stands in the tree may be guarded: reading a file or listing a directory, writing a file or
making an entry in a directory, and passing through a directory can each be refused, because
permission is missing or because the device does not work. The names in the tree are texts of
characters. Links between places are left out.

All changes go through `put`, which `lookup_put` describes. Every operation reports the faults that
an operating system reports, with the path it was given.
-/

namespace StructAtlas

/-- What stands under a name. -/
inductive Node where
  | file (bytes : List UInt8)
  | directory
deriving Repr, DecidableEq

/-- Why an operating system refuses access to a place. -/
inductive Refusal where
  | permission
  | device
deriving Repr, DecidableEq

/-- What is refused at a place. A file that may not be read may not be written either. -/
structure Access where
  read : Option Refusal := none
  write : Option Refusal := none
  search : Option Refusal := none
deriving Repr, DecidableEq, Inhabited

/-- The files and directories of a file system, by component list, with the component list of the
working directory. Access to places without a guard is free. -/
structure FileTree where
  nodes : List (List String × Node)
  home : List String := []
  guards : List (List String × Access) := []
deriving Repr, DecidableEq, Inhabited

/-- Why an operation on files fails. -/
inductive FileFault.Kind where
  | notFound
  | alreadyExists
  | notADirectory
  | isADirectory
  | nameTooLong
  | nullCharacter
  | refused (why : Refusal)
deriving Repr, DecidableEq

/-- A failed operation and the path it was asked for. -/
structure FileFault where
  kind : FileFault.Kind
  path : WideText
deriving Repr, DecidableEq

namespace FileFault

/-- The class of the fault, as messages name it. -/
def className (f : FileFault) : String :=
  match f.kind with
  | .notFound => "FileNotFoundError"
  | .alreadyExists => "FileExistsError"
  | .notADirectory => "NotADirectoryError"
  | .isADirectory => "IsADirectoryError"
  | .nameTooLong => "OSError"
  | .nullCharacter => "ValueError"
  | .refused .permission => "PermissionError"
  | .refused .device => "OSError"

/-- The message of the fault. -/
def message (f : FileFault) : String :=
  let p := f.path.quoted
  match f.kind with
  | .notFound => "[Errno 2] No such file or directory: " ++ p
  | .alreadyExists => "[Errno 17] File exists: " ++ p
  | .notADirectory => "[Errno 20] Not a directory: " ++ p
  | .isADirectory => "[Errno 21] Is a directory: " ++ p
  | .nameTooLong => "[Errno 36] File name too long: " ++ p
  | .nullCharacter => "embedded null byte"
  | .refused .permission => "[Errno 13] Permission denied: " ++ p
  | .refused .device => "[Errno 5] Input/output error: " ++ p

end FileFault

namespace FileTree

/-- The longest component, in bytes. -/
def componentLimit : Nat := 255

/-- The longest path, in bytes. -/
def pathLimit : Nat := 4095

/-- The tree without files. -/
def empty : FileTree := { nodes := [] }

/-- What stands under a component list. -/
def lookup (t : FileTree) (key : List String) : Option Node :=
  if key.isEmpty then some .directory
  else (t.nodes.find? fun n => n.1 == key).map (·.2)

/-- What is refused at a place. -/
def access (t : FileTree) (key : List String) : Access :=
  (t.guards.lookup key).getD {}

/-- Fails if something is refused. -/
def permit : Option Refusal → Except FileFault.Kind Unit
  | none => .ok ()
  | some why => .error (.refused why)

/-- Follows components from a directory to a place that may or may not exist. -/
def walk (t : FileTree) : List String → List String → Except FileFault.Kind (List String)
  | key, [] => .ok key
  | key, p :: ps =>
    match t.lookup key with
    | none => .error .notFound
    | some (.file _) => .error .notADirectory
    | some .directory =>
      match (t.access key).search with
      | some why => .error (.refused why)
      | none =>
        if p == ".." then walk t key.dropLast ps
        else if componentLimit < p.utf8ByteSize then .error .nameTooLong
        else walk t (key ++ [p]) ps

/-- The place where a path begins. -/
def origin (t : FileTree) (p : Path) : List String :=
  if p.root.isEmpty then t.home else []

/-- The place that a path leads to. -/
def place (t : FileTree) (p : Path) : Except FileFault.Kind (List String) :=
  let text := p.toText
  if text.toList.contains '\x00' then .error .nullCharacter
  else if pathLimit < text.utf8ByteSize then .error .nameTooLong
  else t.walk (t.origin p) p.parts

/-- A result whose fault names the path of the operation. -/
def blame {α : Type} (p : Path) : Except FileFault.Kind α → Except FileFault α
  | .ok a => .ok a
  | .error kind => .error ⟨kind, p.toText⟩

/-- Whether a fault on the way to a path means that the path leads nowhere. A refusal and too long a
name leave it open. -/
def isNowhere : FileFault.Kind → Bool
  | .nameTooLong => false
  | .refused _ => false
  | _ => true

/-- What a path leads to, or `none` if it leads nowhere. -/
def find? (t : FileTree) (p : Path) : Except FileFault (Option Node) :=
  match t.place p with
  | .ok key => .ok (t.lookup key)
  | .error kind => if isNowhere kind then .ok none else .error ⟨kind, p.toText⟩

/-- Whether a path leads to something. -/
def contains (t : FileTree) (p : Path) : Except FileFault Bool :=
  (t.find? p).map Option.isSome

/-- Whether a path leads to a directory. -/
def isDirectory (t : FileTree) (p : Path) : Except FileFault Bool :=
  (t.find? p).map (· == some .directory)

/-- The bytes of a file. -/
def read (t : FileTree) (p : Path) : Except FileFault (List UInt8) :=
  blame p do
    let key ← t.place p
    match t.lookup key with
    | none => throw .notFound
    | some node =>
      permit (t.access key).read
      match node with
      | .file bytes => return bytes
      | .directory => throw .isADirectory

/-- The names of what stands directly in a directory. -/
def namesIn (t : FileTree) (key : List String) : List String :=
  t.nodes.filterMap fun n =>
    match Path.dropParts? key n.1 with
    | some [name] => some name
    | _ => none

/-- The names in a directory. -/
def list (t : FileTree) (p : Path) : Except FileFault (List String) :=
  blame p do
    let key ← t.place p
    match t.lookup key with
    | none => throw .notFound
    | some (.file _) => throw .notADirectory
    | some .directory =>
      permit (t.access key).read
      return t.namesIn key

/-- Sets the content under a component list; a new one goes to the end. -/
def putNode (key : List String) (node : Node) :
    List (List String × Node) → List (List String × Node)
  | [] => [(key, node)]
  | n :: ns => if n.1 == key then (key, node) :: ns else n :: putNode key node ns

/-- Sets what stands under a component list. -/
def put (t : FileTree) (key : List String) (node : Node) : FileTree :=
  { t with nodes := putNode key node t.nodes }

theorem find?_putNode (key other : List String) (node : Node) (ns : List (List String × Node)) :
    (putNode key node ns).find? (fun n => n.1 == other)
      = if other = key then some (key, node) else ns.find? fun n => n.1 == other := by
  induction ns with
  | nil =>
    by_cases h : other = key
    · simp [putNode, h]
    · have h' : ¬ key = other := fun e => h e.symm
      simp [putNode, h, h']
  | cons n ns ih =>
    by_cases hk : n.1 = key
    · by_cases h : other = key
      · simp [putNode, hk, h]
      · have h' : ¬ key = other := fun e => h e.symm
        simp [putNode, hk, h, h']
    · by_cases h : n.1 = other
      · have h' : ¬ other = key := fun e => hk (h.trans e)
        simp [putNode, h, h']
      · rw [putNode, if_neg (by simpa using hk), List.find?_cons_of_neg (by simpa using h), ih,
          List.find?_cons_of_neg (by simpa using h)]

/-- What was put under a component list stands there, and everything else stays. -/
theorem lookup_put (t : FileTree) {key : List String} (h : key ≠ []) (node : Node)
    (other : List String) :
    (t.put key node).lookup other = if other = key then some node else t.lookup other := by
  cases other with
  | nil =>
    have h' : ¬ [] = key := fun e => h e.symm
    simp [lookup, h']
  | cons p ps =>
    simp only [lookup, put, List.isEmpty_cons, Bool.false_eq_true, ↓reduceIte, find?_putNode]
    split <;> simp

/-- Fails unless an entry can be made in the directory of a place. -/
def permitEntry (t : FileTree) (key : List String) : Except FileFault.Kind Unit :=
  match t.lookup key.dropLast with
  | some .directory => permit (t.access key.dropLast).write
  | some (.file _) => .error .notADirectory
  | none => .error .notFound

/-- The place where a file can be written: its directory exists and it is no directory itself. -/
def target (t : FileTree) (p : Path) : Except FileFault.Kind (List String) := do
  let key ← t.place p
  match t.lookup key with
  | some .directory => throw .isADirectory
  | some (.file _) => pure ()
  | none => t.permitEntry key
  permit ((t.access key).read.or (t.access key).write)
  return key

/-- Writes a file, replacing an earlier one. -/
def write (t : FileTree) (p : Path) (bytes : List UInt8) : Except FileFault FileTree :=
  blame p do return t.put (← t.target p) (.file bytes)

/-- Adds bytes to the end of a file, which is created if needed. -/
def append (t : FileTree) (p : Path) (bytes : List UInt8) : Except FileFault FileTree :=
  blame p do
    let key ← t.target p
    match t.lookup key with
    | some (.file old) => return t.put key (.file (old ++ bytes))
    | _ => return t.put key (.file bytes)

/-- Creates one directory. -/
def makeDirectory (t : FileTree) (p : Path) : Except FileFault FileTree :=
  blame p do
    let key ← t.place p
    match t.lookup key with
    | some _ => throw .alreadyExists
    | none =>
      t.permitEntry key
      return t.put key .directory

/-- Creates a directory if it does not exist; whatever else stands there is a fault. -/
def ensureDirectory (t : FileTree) (p : Path) : Except FileFault FileTree :=
  match t.makeDirectory p with
  | .ok t => .ok t
  | .error fault =>
    match fault.kind, t.isDirectory p with
    | .notFound, _ => .error fault
    | .nullCharacter, _ => .error fault
    | _, .ok true => .ok t
    | _, .ok false => .error fault
    | _, .error other => .error other

/-- Creates a directory and the directories above it, as far as they are missing. The first argument
bounds how many directories above may be missing. -/
def ensureDirectories : Nat → FileTree → Path → Except FileFault FileTree
  | 0, t, p => t.ensureDirectory p
  | fuel + 1, t, p =>
    match t.ensureDirectory p with
    | .ok t => .ok t
    | .error fault =>
      if fault.kind == .notFound && !p.parts.isEmpty then do
        let t ← ensureDirectories fuel t p.parent
        t.ensureDirectory p
      else .error fault

/-- Creates a directory together with all directories above it. -/
def makeDirectories (t : FileTree) (p : Path) : Except FileFault FileTree :=
  ensureDirectories p.parts.length t p

/-- The length of the longest component list in a tree. -/
def depth (t : FileTree) : Nat :=
  t.nodes.foldr (fun n deepest => max n.1.length deepest) 0

end FileTree

end StructAtlas
