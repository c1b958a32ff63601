import StructAtlas.Comment
import StructAtlas.Declaration.Candidate
import StructAtlas.Declaration.Rule
import StructAtlas.LineIndex
import StructAtlas.Source
import StructAtlas.Usage

set_option autoImplicit false

/-!
# Scanning sources for structs

A source is scanned in three steps: its comments are removed, its declarations are entered into the
registry, and then the uses of registered names are entered. So a use counts if its name is declared
anywhere in the same source or was known before.

`Scan.unit` is the scan of one source; it returns the registry together with what it came across, in
order. `Scanner.scanFile` and `Scanner.scan` read the files, write the log and go on after a file
that cannot be read.
-/

namespace StructAtlas

/-- What a scan comes across: a declaration, a candidate that fits no rule, or a new use of a
registered name. -/
inductive Finding where
  | declared (declaration : Declaration) (location : Location)
  | malformed (content : List Char)
  | used (name : String) (location : Location)
deriving Repr, DecidableEq

/-- The outcome of scanning one source; the fault is that of a rule that ended the scan. -/
structure Scanned where
  registry : Registry
  findings : List Finding
  fault : Option UnknownSlot
deriving Repr, DecidableEq

namespace Scan

/-- The text of a source without its comments. -/
def cleanText (keepLines : Bool) (u : SourceUnit) : List Char :=
  Comment.strip keepLines u.text

/-- The lines by which places are counted: those of the clean text if it kept its lines, else those
of the source itself. -/
def lineIndex (keepLines : Bool) (u : SourceUnit) : LineIndex :=
  LineIndex.ofLines (Text.lines (if keepLines then cleanText true u else u.text))

/-- The place of an offset of the clean text. -/
def place (path : String) (index : LineIndex) (offset : Nat) : Location :=
  ⟨path, index.lineAt offset⟩

/-- Enters the declarations among some candidates into a registry. -/
def declare (rules : List Rule) (locate : Nat → Location) :
    List Candidate → Registry → Scanned
  | [], r => ⟨r, [], none⟩
  | c :: cs, r =>
    match disambiguate rules c.content with
    | .error fault => ⟨r, [], some fault⟩
    | .ok none =>
      let rest := declare rules locate cs r
      { rest with findings := .malformed c.content :: rest.findings }
    | .ok (some d) =>
      let l := locate c.start
      let rest := declare rules locate cs (r.addDefinition d.name l).1
      { rest with findings := .declared d l :: rest.findings }

/-- Enters the uses of registered names into a registry. -/
def use (locate : Nat → Location) : List (String × Nat) → Registry → Scanned
  | [], r => ⟨r, [], none⟩
  | u :: us, r =>
    let l := locate u.2
    let added := r.addUsage u.1 l
    let rest := use locate us added.1
    if added.2 then { rest with findings := .used u.1 l :: rest.findings } else rest

/-- Scans one source into a registry. -/
def unit (rules : List Rule) (keepLines : Bool) (u : SourceUnit) (r : Registry) : Scanned :=
  let clean := cleanText keepLines u
  let locate := place u.path (lineIndex keepLines u)
  let declared := declare rules locate (candidates clean) r
  match declared.fault with
  | some _ => declared
  | none =>
    let used := use locate (Usage.find clean) declared.registry
    { used with findings := declared.findings ++ used.findings }

/-- Logs one finding; a candidate that fits no rule is a problem too. -/
def logFinding (u : SourceUnit) : Finding → Act Unit
  | .declared d l =>
    Act.log .debug appPhase
      ("선언 발견: " ++ d.name ++ " (" ++ d.shape.name ++ ") at " ++ l.shown)
  | .malformed content => do
    let text := String.ofList content
    Act.log .warning appPhase
      ("File: " ++ u.path ++ "\n잘못된 구조체 매칭: " ++ text ++ "\n---")
    Act.report .malformedDeclaration ("Invalid struct match in " ++ u.path ++ ": " ++ text)
  | .used name l => Act.log .debug appPhase ("사용 발견: " ++ name ++ " at " ++ l.shown)

/-- Whether a finding is a declaration. -/
def isDeclared : Finding → Bool
  | .declared .. => true
  | _ => false

/-- Whether a finding is a use. -/
def isUsed : Finding → Bool
  | .used .. => true
  | _ => false

/-- Logs the findings of a scan and, if it came to its end, their numbers. -/
def logScanned (u : SourceUnit) (scanned : Scanned) : Act Unit := do
  scanned.findings.forM (logFinding u)
  match scanned.fault with
  | some fault => throw (.unknownSlot fault)
  | none =>
    let declared := scanned.findings.countP isDeclared
    let used := scanned.findings.countP isUsed
    Act.log .debug analysisPhase
      (u.path ++ ": 선언 " ++ toString declared ++ "개, 사용 " ++ toString used ++ "개")

end Scan

/-- What is scanned and how. Places are counted by the lines of the source if the lines are kept. -/
structure Scanner where
  reader : SourceReader
  includes : List WideText
  excludes : List WideText
  keepLines : Bool

/-- The state of a scan of several files. -/
structure Tally where
  registry : Registry
  scanned : Nat
  failed : Nat
deriving Repr, DecidableEq, Inhabited

namespace Scanner

/-- The word for a file that cannot be scanned, in the log and in the list of problems. -/
def skipWords : Failure → String × String × ProblemKind
  | .sourceDecode .. => ("디코딩 실패로 건너뜀", "Decode Error", .decode)
  | _ => ("IO 오류로 건너뜀", "IO Error", .io)

/-- Scans one file. A file that cannot be read or decoded is noted and counted. -/
def scanFile (scanner : Scanner) (path : Path) (t : Tally) : Act Tally := do
  match ← (scanner.reader.read path).attempt with
  | .ok u =>
    let scanned := Scan.unit Rule.defaults scanner.keepLines u t.registry
    Scan.logScanned u scanned
    return { t with registry := scanned.registry, scanned := t.scanned + 1 }
  | .error e =>
    if e.isLocal then
      let (words, title, kind) := skipWords e
      Act.log .warning analysisPhase
        ("File: " ++ path.toText ++ "\n" ++ words ++ ": " ++ e.message ++ "\n---")
      Act.report kind (title ++ " processing " ++ path.toText ++ ": " ++ e.message)
      return { t with failed := t.failed + 1 }
    else throw e

/-- Scans files one after the other. -/
def scanFiles (scanner : Scanner) : List Path → Tally → Act Tally
  | [], t => return t
  | p :: ps, t => do scanner.scanFiles ps (← scanner.scanFile p t)

/-- Scans all source files below the root into a registry. -/
def scan (scanner : Scanner) (registry : Registry) : Act Tally :=
  Act.stage "구조체 분석" analysisPhase [("root", scanner.reader.root.toText)] do
    let paths ← Source.discover scanner.reader.root scanner.includes scanner.excludes
    Act.log .info analysisPhase ("분석 대상 파일 " ++ toString paths.length ++ "개")
    let t ← scanner.scanFiles paths ⟨registry, 0, 0⟩
    Act.log .info analysisPhase
      ("분석 완료: 파일 " ++ toString t.scanned ++ "개, 실패 " ++ toString t.failed ++ "개, 구조체 "
        ++ toString t.registry.entries.length ++ "개")
    return t

end Scanner

end StructAtlas
