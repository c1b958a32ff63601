import StructAtlas.Path.Glob
import StructAtlas.Session

set_option autoImplicit false

/-!
# Source files

The source files of a run are the files below a root that match a pattern of one list and none of
another, in the order of their relative paths. They are found by listing one directory after the
other. A directory that may not be listed counts as empty; every other fault on the way ends the
search.

A file is decoded by a primary codec or, if its bytes are not allowed there, by a fallback. Line
ends are unified to line feeds.
-/

namespace StructAtlas

/-- The text of a source file and its path relative to the source root. -/
structure SourceUnit where
  path : String
  text : List Char
deriving Repr, DecidableEq

namespace Source

/-! ## The files below a directory -/

/-- All results of an operation on the elements of a list, or the first fault. -/
def gather {α β : Type} (f : α → Except FileFault (List β)) : List α → Except FileFault (List β)
  | [] => .ok []
  | a :: as => do
    let bs ← f a
    let rest ← gather f as
    return bs ++ rest

/-- Looks at what stands below a root. -/
def look (files : FileTree) (root : Path) (parts : List String) :
    Except FileFault (List (List String × Option Node)) :=
  (files.find? (root.join ⟨"", parts⟩)).map fun node => [(parts, node)]

/-- The files among some entries. -/
def filesAmong (entries : List (List String × Option Node)) : List (List String) :=
  entries.filterMap fun e =>
    match e.2 with
    | some (.file _) => some e.1
    | _ => none

/-- The directories among some entries. -/
def directoriesAmong (entries : List (List String × Option Node)) : List (List String) :=
  (entries.filter fun e => e.2 == some .directory).map (·.1)

/-- The names in a directory below a root. A directory that may not be listed counts as empty. -/
def namesIn (files : FileTree) (root : Path) (parts : List String) :
    Except FileFault (List String) :=
  match files.list (root.join ⟨"", parts⟩) with
  | .ok names => .ok names
  | .error fault => if fault.kind == .refused .permission then .ok [] else .error fault

/-- The files below a directory that stands below a root, as component lists behind the root. All
entries of the directory are looked at before its own directories are listed. The first argument
bounds how many directories may lie in each other. -/
def filesFrom (files : FileTree) (root : Path) :
    Nat → List String → Except FileFault (List (List String))
  | 0, _ => .ok []
  | fuel + 1, parts => do
    let names ← namesIn files root parts
    let entries ← gather (look files root) (names.map fun name => parts ++ [name])
    let below ← gather (filesFrom files root fuel) (directoriesAmong entries)
    return filesAmong entries ++ below

/-- The files below a directory, as component lists behind it, in increasing order. -/
def filesBelow (files : FileTree) (root : Path) : Except FileFault (List (List String)) :=
  (filesFrom files root (files.depth + 1) []).map (·.mergeSort Path.partsLe)

/-- The relative path of a component list. -/
def relativeText (parts : List String) : String :=
  (Path.mk "" parts).toText

/-- Whether a relative path matches one of the patterns. -/
def isMatched (patterns : List WideText) (parts : List String) : Bool :=
  Glob.matchesAny (relativeText parts) patterns

/-- The files that match an include pattern and no exclude pattern. -/
def select (includes excludes : List WideText) (below : List (List String)) : List (List String) :=
  below.filter fun p => isMatched includes p && !isMatched excludes p

/-- The files that match an include pattern and an exclude pattern. -/
def excluded (includes excludes : List WideText) (below : List (List String)) :
    List (List String) :=
  below.filter fun p => isMatched includes p && isMatched excludes p

/-- The source files below a root; files that an exclude pattern leaves out are logged. -/
def discover (root : Path) (includes excludes : List WideText) : Act (List Path) := do
  if !(← Act.askFiles (·.isDirectory root)) then throw (.sourceRoot root)
  match filesBelow (← get).files root with
  | .error fault => throw (.sourceListing root fault)
  | .ok below =>
    (excluded includes excludes below).forM fun p =>
      Act.log .debug appPhase ("제외됨: " ++ relativeText p)
    return (select includes excludes below).map fun p => root.join ⟨"", p⟩

/-! ## The text of a file -/

/-- A text in which a carriage return and a line feed behind it are one line feed. -/
def joinLineEnds : List Char → List Char
  | [] => []
  | '\r' :: '\n' :: cs => '\n' :: joinLineEnds cs
  | c :: cs => c :: joinLineEnds cs

/-- A text whose lines all end in line feeds. -/
def unifyLineEnds (cs : List Char) : List Char :=
  (joinLineEnds cs).map fun c => if c == '\r' then '\n' else c

/-- The text that two codecs made of bytes, or why there is none, and whether the fallback was
tried. -/
structure Decoded where
  retried : Bool
  result : Except Failure (List Char)

/-- Decodes bytes by a primary codec, and by a fallback if the bytes are not allowed in the primary
one. Other faults are not retried. -/
def decode (primary fallback : Charset.Codec) (bytes : List UInt8) : Decoded :=
  match primary.decode bytes with
  | .ok text => ⟨false, .ok (unifyLineEnds text)⟩
  | .error (.bytes _) =>
    ⟨true,
      match fallback.decode bytes with
      | .ok text => .ok (unifyLineEnds text)
      | .error (.bytes fault) => .error (.sourceDecode primary.name fallback.name fault)
      | .error fault => .error (.charset fault)⟩
  | .error fault => ⟨false, .error (.charset fault)⟩

/-- Reads the bytes of a source file. -/
def readBytes (path : Path) : Act (List UInt8) :=
  Act.onRefusal (Act.askFiles (·.read path)) fun fault => throw (.sourceRead fault)

/-- Reads and decodes a source file. A second attempt at decoding is logged. -/
def decodeFile (primary fallback : Charset.Codec) (path : Path) : Act (List Char) := do
  let bytes ← readBytes path
  let decoded := decode primary fallback bytes
  if decoded.retried then
    Act.log .debug appPhase
      (primary.name ++ " 디코딩 실패, " ++ fallback.name ++ " 로 재시도: " ++ path.toText)
  Act.ofExcept id decoded.result

end Source

/-- How the source files below a root are read. -/
structure SourceReader where
  root : Path
  primary : Charset.Codec := .utf8
  fallback : Charset.Codec := .latin1

namespace SourceReader

/-- Reads a source file, which has to lie below the root. -/
def read (reader : SourceReader) (path : Path) : Act SourceUnit := do
  let text ← Source.decodeFile reader.primary reader.fallback path
  match path.relativeTo? reader.root with
  | some relative => return ⟨relative.toText, text⟩
  | none => throw (.notBelow path reader.root)

/-! ## Paths with code points that are no characters

The operating system gets a path as bytes. A code point from U+DC80 to U+DCFF stands for one byte in
it; the other code points that are no characters cannot be passed on. Since the names in a tree are
texts, a name whose bytes are no text is the name of nothing.
-/

/-- The bytes of a code point in a path. -/
def pathBytes? (n : Nat) : Option (List UInt8) :=
  if n.isValidChar then some (Charset.Utf8.encodeChar (Char.ofNat n))
  else if 0xdc80 ≤ n && n ≤ 0xdcff then some [UInt8.ofNat (n - 0xdc00)]
  else none

/-- The text of a component, if its bytes are one. -/
def nameOf? (codes : List Nat) : Option String :=
  match Charset.Utf8.decode (codes.flatMap fun n => (pathBytes? n).getD []) with
  | .ok cs => some (String.ofList cs)
  | .error _ => none

/-- The components of a path, for those in front of the first one that is no text. -/
def namesOf : List (List Nat) → List String
  | [] => []
  | codes :: rest =>
    match nameOf? codes with
    | some name => name :: namesOf rest
    | none => []

/-- The components of a path of code points. -/
def codeParts (codes : List Nat) : List (List Nat) :=
  (Text.splitOn '/'.toNat codes).filter fun p => !p.isEmpty && p != ['.'.toNat]

/-- The directory from which the components of a path of code points are followed. -/
def baseOf (root : Path) (codes : List Nat) : Path :=
  root.join ⟨Path.rootOf (codes.map Text.characterOf), []⟩

/-- The text of a path of code points, seen from a directory. -/
def codeText (root : Path) (codes : List Nat) : WideText :=
  let front := ((baseOf root codes).child "").toText
  .ofCodes (Text.codes front.toList ++ ['/'.toNat].intercalate (codeParts codes))

/-- Why nothing is read at a path in which a component is no text: what is in front of the component
cannot be passed, a name is too long, or nothing stands there. -/
def brokenFault (files : FileTree) (front : Path) (part : List Nat) (shown : WideText) :
    FileFault.Kind :=
  let size (codes : List Nat) : Nat := (codes.flatMap fun n => (pathBytes? n).getD []).length
  if FileTree.pathLimit < size shown.codes then .nameTooLong
  else
    -- The length of the component matters to the way there, not its characters.
    match files.place (front.child (String.ofList (List.replicate (size part) '_'))) with
    | .ok _ => .notFound
    | .error kind => kind

/-- Reads a source file by a relative path that is not made of characters. -/
def readBroken (reader : SourceReader) (codes : List Nat) : Act SourceUnit :=
  let names := namesOf (codeParts codes)
  let front := (baseOf reader.root codes).join ⟨"", names⟩
  let shown := codeText reader.root codes
  if !codes.all fun n => (pathBytes? n).isSome then throw .unencodable
  else
    match (codeParts codes).drop names.length with
    | [] => reader.read front
    | part :: _ =>
      if codes.contains 0 then throw (.file ⟨.nullCharacter, shown⟩)
      else do throw (.sourceRead ⟨brokenFault (← get).files front part shown, shown⟩)

/-- Reads a source file by its path relative to the root. -/
def readRelative (reader : SourceReader) : WideText → Act SourceUnit
  | .plain relative => reader.read (reader.root.joinText relative)
  | .broken codes _ => reader.readBroken codes

end SourceReader

end StructAtlas
