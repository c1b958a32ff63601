import StructAtlas.JavaClass
import StructAtlas.Source

set_option autoImplicit false

/-!
# Generating Java files

Generation selects the most referenced structs. Every source file in which one of them is first
defined takes part with all structs that are first defined there. Each struct is generated from the
first of its definitions that has a body, and structs whose bodies stand in the same file share a
Java file.

Source files are read again for the bodies. The lines of a file are kept once it has been read, so
later changes of the file are not seen.
-/

namespace StructAtlas

/-- What is generated and where to. -/
structure Generator where
  registry : Registry
  reader : SourceReader
  output : Path
  topCount : Int
  packages : Packages

/-- A struct together with the definition that it is generated from. -/
abbrev Planned := Entry × Location

/-- The outcome of a generation: the files written, the names of the classes in each Java file, and
the structs for which no class could be built. -/
structure Generated where
  written : List Path
  classes : List (String × List Name)
  skipped : List Name
deriving Repr, DecidableEq, Inhabited

namespace SourceReader

/-- The lines of a source file without its comments. -/
def linesOf (reader : SourceReader) (path : WideText) : Act (List (List Char)) := do
  match (← get).lines.find? (·.1 == path) with
  | some known => return known.2
  | none =>
    let u ← reader.readRelative path
    let ls := Text.lines (Comment.strip true u.text)
    modify fun s => { s with lines := s.lines ++ [(path, ls)] }
    return ls

/-- The body of the struct at a place. -/
def bodyAt (reader : SourceReader) (l : Location) : Act Body.Found := do
  let ls ← reader.linesOf l.path
  Act.ofExcept (.body l) (Body.find ls l.line)

/-- Whether a body begins at a place. A file that cannot be read has none. -/
def hasBody (reader : SourceReader) (l : Location) : Act Bool := do
  match ← (reader.linesOf l.path).attempt with
  | .ok ls => return Body.begins ls l.line
  | .error e =>
    if e.isLocal then
      Act.log .warning generatePhase ("Error reading " ++ l.path.shown ++ ": " ++ e.message)
      return false
    else throw e

/-- The first of some places at which a body begins. -/
def firstWithBody? (reader : SourceReader) : List Location → Act (Option Location)
  | [] => return none
  | l :: ls => do if ← reader.hasBody l then return some l else reader.firstWithBody? ls

/-- The place a struct is generated from: the first one with a body, or else the first one. -/
def owningLocation? (reader : SourceReader) : List Location → Act (Option Location)
  | [] => return none
  | l :: ls => do
    match ← reader.firstWithBody? (l :: ls) with
    | some found => return some found
    | none =>
      Act.log .warning generatePhase ("본문 있는 정의를 찾지 못해 첫 위치로 대체: " ++ l.shown)
      return some l

end SourceReader

namespace Generation

/-- The file of the first definition of a struct. -/
def firstFile? (e : Entry) : Option WideText :=
  e.definitions.head?.map (·.path)

/-- Adds a file at the end of a list unless it is there. -/
def insertNew (files : List WideText) (file : WideText) : List WideText :=
  if files.contains file then files else files ++ [file]

/-- The files in which structs are first defined, each once. -/
def firstFiles (es : List Entry) : List WideText :=
  (es.filterMap firstFile?).foldl insertNew []

/-- The structs that are first defined in a file. -/
def definedIn (r : Registry) (file : WideText) : List Entry :=
  r.entries.filter fun e => firstFile? e == some file

/-- Adds a struct to the group of the file its body stands in; a new group goes to the end. -/
def addToGroup (p : Planned) : List (WideText × List Planned) → List (WideText × List Planned)
  | [] => [(p.2.path, [p])]
  | g :: gs => if g.1 == p.2.path then (g.1, g.2 ++ [p]) :: gs else g :: addToGroup p gs

/-- Structs grouped by the files their bodies stand in. -/
def groups (ps : List Planned) : List (WideText × List Planned) :=
  ps.foldl (fun gs p => addToGroup p gs) []

/-- What is noted about a struct whose body cannot be used, and as which kind of problem. Failures
that do not concern this struct alone have no words. -/
def skipNote? (e : Entry) (l : Location) (failure : Failure) : Option (String × ProblemKind) :=
  match failure with
  | .body _ (.unmatched ..) =>
    some ("Unmatched braces for " ++ e.name.shown ++ " at " ++ failure.message, .unmatchedBraces)
  | .body .. =>
    some ("No struct body found for " ++ e.name.shown ++ " at " ++ failure.message, .missingBody)
  | .sourceDecode .. =>
    some
      ("Error decoding " ++ l.path.shown ++ " for " ++ e.name.shown ++ ": " ++ failure.message,
        .decode)
  | .sourceRead _ =>
    some
      ("Error reading " ++ l.path.shown ++ " for " ++ e.name.shown ++ ": " ++ failure.message, .io)
  | _ => none

/-- Reads the fields of a body and logs the statements that are none. -/
def readFields (body : List Char) : Act (List Field) := do
  (Field.unread body).forM fun s =>
    Act.log .debug generatePhase ("필드로 인식되지 않은 문장: " ++ Text.quote (String.ofList s))
  return Field.ofBody body

end Generation

namespace Generator

open Generation

/-- The selected structs. -/
def selected (g : Generator) : Act (List Entry) :=
  Act.ofExcept .clash (g.registry.rank g.topCount)

/-- The files in which some structs are first defined. A struct without definition is logged. -/
def owningFiles (es : List Entry) : Act (List WideText) := do
  (es.filter fun e => e.definitions.isEmpty).forM fun e =>
    Act.log .warning generatePhase ("정의 위치가 없어 건너뜀: " ++ e.name.shown)
  return firstFiles es

/-- Finds the places that structs are generated from. -/
def locateAll (g : Generator) : List Entry → Act (List Planned)
  | [] => return []
  | e :: es => do
    Act.log .debug generatePhase
      (e.name.shown ++ " 정의 탐색: " ++ (Value.texts (e.definitions.map Location.toText)).display)
    match ← g.reader.owningLocation? e.definitions with
    | some l => return (e, l) :: (← g.locateAll es)
    | none => g.locateAll es

/-- The structs to generate, grouped by the files their bodies stand in. -/
def plan (g : Generator) : Act (List (WideText × List Planned)) := do
  let files ← owningFiles (← g.selected)
  let planned ← g.locateAll (files.flatMap (definedIn g.registry))
  return groups planned

/-- Builds the class of a struct. A struct whose body cannot be used is noted. -/
def buildClass (g : Generator) (e : Entry) (l : Location) : Act (Option JavaClass) := do
  match ← (g.reader.bodyAt l).attempt with
  | .ok body =>
    let fields ← readFields body.text
    if fields.isEmpty then
      Act.log .warning generatePhase
        ("No fields parsed for " ++ e.name.shown ++ " from body: "
          ++ Text.quote (String.ofList (Text.trim body.text)))
      Act.report .noFields ("No fields parsed for " ++ e.name.shown ++ " at " ++ l.shown)
    return some (JavaClass.ofFields e.name fields g.registry.textNames)
  | .error failure =>
    match skipNote? e l failure with
    | some (words, kind) =>
      Act.log .warning generatePhase words
      Act.report kind words
      return none
    | none => throw failure

/-- Builds the classes of a group; the structs without class are returned by name. -/
def buildAll (g : Generator) : List Planned → Act (List JavaClass × List Name)
  | [] => return ([], [])
  | (e, l) :: ps => do
    let built ← g.buildClass e l
    let (classes, skipped) ← g.buildAll ps
    match built with
    | some c => return (c :: classes, skipped)
    | none => return (classes, e.name :: skipped)

/-- Writes a text that mentions some values to a file. If one of them is not made of characters,
nothing of the text is written. -/
def writeMentioning (path : Path) (mentioned : List Value) (text : String) : Act Unit := do
  if mentioned.all (·.isEncodable) then Act.writeText path text
  else
    Act.writeText path ""
    throw .unencodable

/-- Writes a Java file that mentions some values. A file that cannot be written is noted. -/
def writeFile (g : Generator) (name : String) (mentioned : List Value) (text : String) :
    Act (Option Path) := do
  if !mentioned.all (·.isShowable) then throw .unshowable
  let path := g.output.joinText name
  Act.onRefusal
    (do writeMentioning path mentioned text
        Act.log .info generatePhase ("생성: " ++ path.toText)
        return some path)
    fun fault => do
      Act.log .error generatePhase ("Error writing " ++ name ++ ": " ++ fault.message)
      Act.report .io ("Error writing " ++ name ++ ": " ++ fault.message)
      return none

/-- What has been generated so far, the names of Java files in use, and whether a written class
needs the support class. -/
structure Progress where
  result : Generated
  used : List String
  needsSupport : Bool
deriving Inhabited

/-- The progress after a Java file was written. -/
def Progress.addFile (p : Progress) (path : Path) (name : String) (classes : List JavaClass) :
    Progress :=
  { p with
    result :=
      { p.result with
        written := p.result.written ++ [path]
        classes := p.result.classes ++ [(name, classes.map (·.name))] }
    needsSupport := p.needsSupport || classes.any (·.needsUnsigned) }

/-- The progress after structs were left out. -/
def Progress.addSkipped (p : Progress) (names : List Name) : Progress :=
  { p with result := { p.result with skipped := p.result.skipped ++ names } }

/-- Generates the Java file of one group. -/
def generateGroup (g : Generator) (p : Progress) (group : WideText × List Planned) :
    Act Progress := do
  let (classes, skipped) ← g.buildAll group.2
  let p := p.addSkipped skipped
  if classes.isEmpty then
    Act.log .warning generatePhase (group.1.shown ++ ": 생성할 클래스가 없어 파일을 만들지 않음")
    return p
  let name := Naming.outputFile group.1.shown p.used Naming.sourceExtension
  let p := { p with used := name :: p.used }
  let mentioned := g.packages.mentioned classes ++ classes.map (·.name.toValue)
  match ← g.writeFile name mentioned (g.packages.renderUnit classes (Path.parse name).stem) with
  | some path => return p.addFile path name classes
  | none => return p

/-- Generates the Java files of groups one after the other. -/
def generateGroups (g : Generator) : List (WideText × List Planned) → Progress → Act Progress
  | [], p => return p
  | group :: groups, p => do g.generateGroups groups (← g.generateGroup p group)

/-- Writes the support class. -/
def writeSupport (g : Generator) : Act (Option Path) :=
  g.writeFile (JavaClass.supportClass ++ Naming.sourceExtension) [g.packages.support]
    g.packages.renderSupport

/-- Has the support class written if some written class needs it. -/
def generateSupport (write : Act (Option Path)) (p : Progress) : Act Generated := do
  if p.needsSupport then
    match ← write with
    | some path => return { p.result with written := p.result.written ++ [path] }
    | none => return p.result
  else return p.result

/-- Generates all Java files, with an operation that writes the support class. The number of
selected structs is shown before anything else is done. -/
def generateWith (g : Generator) (write : Act (Option Path)) : Act Generated := do
  if !(Value.int g.topCount).isShowable then throw .unshowable
  Act.stage "POJO 생성" generatePhase
    [("top_n", toString g.topCount), ("output", g.output.toText)] do
    let units ← g.plan
    Act.makeDirectories g.output
    let progress ← g.generateGroups units ⟨⟨[], [], []⟩, [], false⟩
    let result ← generateSupport write progress
    Act.log .info generatePhase
      ("상위 " ++ toString g.topCount ++ "개 구조체 기준 " ++ toString result.classes.length
        ++ "개 파일 생성, 건너뜀 " ++ toString result.skipped.length ++ "개")
    return result

/-- Generates all Java files. -/
def generate (g : Generator) : Act Generated :=
  g.generateWith g.writeSupport

end Generator

end StructAtlas
