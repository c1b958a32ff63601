import StructAtlas.Registry.Export
import StructAtlas.Source

set_option autoImplicit false

/-!
# Reports in files

The registry of an analysis is kept in two files, one to be read back and one for people. Reading
back fails if the file is missing or cannot be understood; a report that stores wrong counts is
accepted and the corrections are logged.
-/

namespace StructAtlas.Report

/-- Writes a text file and creates the directories above it. -/
def write (path : Path) (text : String) : Act Unit := do
  Act.makeDirectories path.parent
  Act.writeText path text

/-- Writes the structured report. -/
def writeJson (registry : Registry) (path : Path) : Act Unit := do
  write path registry.jsonReport
  Act.log .info analysisPhase ("JSON 보고서 저장: " ++ path.toText)

/-- Writes the report for people. -/
def writeText (registry : Registry) (path : Path) : Act Unit := do
  write path registry.textReport
  Act.log .info analysisPhase ("TXT 보고서 저장: " ++ path.toText)

/-- Logs that a count was corrected. A note with a number that is too long to be shown is a failure.
-/
def logNote (note : CountMismatch) : Act Unit := do
  if !note.isShowable then throw .unshowable
  Act.log .debug appPhase note.message

/-- Reads a registry from a value and logs the counts that were corrected. -/
def readValue (v : Value) : Act Registry := do
  let (notes, result) := Registry.readValue v
  notes.forM logNote
  Act.ofExcept .content result

/-- The text of a file in UTF-8. -/
def decodeText (bytes : List UInt8) : Except Charset.DecodeFault (List Char) :=
  (Charset.Utf8.decode bytes).map Source.unifyLineEnds

/-- The value that the bytes of a report stand for. -/
def parse (bytes : List UInt8) : Except ReportFault Value :=
  match decodeText bytes with
  | .error fault => .error (.bytes fault)
  | .ok text => (Json.parse text).mapError .json

/-- Whether a fault of the content is one of a malformed report. -/
def isMalformed : ImportFault → Bool
  | .noDefinitions => true
  | .noName _ => true
  | .place _ => true
  | _ => false

/-- A failure while a report is read, as a failure of the report where it is one. -/
def blame (path : Path) : Failure → Failure
  | .file fault => if fault.kind == .nullCharacter then .file fault else .report path (.file fault)
  | .content fault =>
    if isMalformed fault then .report path (.content fault) else .content fault
  | .unshowable => .report path .unshowable
  | e => e

/-- Reads the registry of an existing report. -/
def readFile (path : Path) : Act Registry := do
  let bytes ← Act.askFiles (·.read path)
  match parse bytes with
  | .ok value => readValue value
  | .error (.json .tooDeep) => throw .tooDeep
  | .error fault => throw (.report path fault)

/-- Reads a report back. -/
def load (path : Path) : Act Registry := do
  if !(← Act.askFiles (·.contains path)) then throw (.reportMissing path)
  match ← (readFile path).attempt with
  | .error e => throw (blame path e)
  | .ok registry =>
    if registry.entries.isEmpty then
      Act.log .warning analysisPhase ("보고서에 정의가 없습니다: " ++ path.toText)
    else
      Act.log .info analysisPhase
        ("보고서에서 구조체 " ++ toString registry.entries.length ++ "개 로드: " ++ path.toText)
    return registry

end StructAtlas.Report
