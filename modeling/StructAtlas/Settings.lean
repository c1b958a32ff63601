import StructAtlas.Generation
import StructAtlas.Markup.Document
import StructAtlas.Report
import StructAtlas.Scan

set_option autoImplicit false

/-!
# Settings of a run

Settings come from a configuration file and from the command line, which wins. Every field has a
default. Some fields are checked when the settings are made; the others are taken as they are, and a
value of the wrong kind shows when it is used. Fields that are not known are logged and ignored.
-/

namespace StructAtlas

/-- The settings of a run. The character sets are given by name, all paths but the source root are
seen from the directory for all output, and an absent or empty name of the report for people or of
the list of problems stands for none. -/
structure Settings where
  sourceRoot : Value
  includes : List WideText
  excludes : List WideText
  primary : String
  fallback : String
  keepLines : Bool
  outputDir : Value
  reportJson : Value
  reportText : Value
  errorFile : Value
  generatedDir : Value
  topCount : Int
  javaPackage : Value
  supportPackage : Value
  logDir : Value
  logLevel : Value

namespace Settings

/-- The names of all fields with their defaults. -/
def defaults : List (String × Value) :=
  [("source_root", .str ""), ("include_patterns", .texts ["*.c", "*.h"]),
   ("exclude_patterns", .list []), ("primary_encoding", .str "utf-8"),
   ("fallback_encoding", .str "latin-1"), ("preserve_line_numbers", .bool true),
   ("output_dir", .str "./SAOut"), ("report_json", .str "struct_report.json"),
   ("report_txt", .str "struct_report.txt"), ("error_file", .str "errors.txt"),
   ("generated_dir", .str "generated"), ("top_n", .int 5), ("java_package", .null),
   ("support_package", .str "org.currierg.pojos"), ("log_dir", .str "logs"),
   ("log_level", .str "INFO")]

/-- The value of a field, or its default. -/
def fieldOf (fields : List (Value × Value)) (name : String) : Value :=
  ((Value.findField? fields name).or (defaults.lookup name)).getD .null

/-- Refuses a value, which is shown. -/
def refuse {α : Type} (fault : Value → ConfigFault) (v : Value) : Except Failure α :=
  if v.isShowable then .error (.config (fault v)) else .error .unshowable

/-- Checks the number of selected structs, which is at least one. -/
def checkCount : Value → Except Failure Int
  | .int n => if n < 1 then refuse .topCount (.int n) else .ok n
  | v => refuse .topCount v

/-- The texts of a list of texts. -/
def texts? : List Value → Option (List WideText)
  | [] => some []
  | v :: vs =>
    match v.wide? with
    | some text => (texts? vs).map (text :: ·)
    | none => none

/-- Checks a list of patterns. -/
def checkPatterns (name : String) (v : Value) : Except Failure (List WideText) :=
  match v with
  | .list items =>
    match texts? items with
    | some patterns => .ok patterns
    | none => refuse (.patterns name) v
  | _ => refuse (.patterns name) v

/-- Checks the choice about line numbers. -/
def checkChoice : Value → Except Failure Bool
  | .bool b => .ok b
  | v => refuse .lineChoice v

/-- Checks the name of a character set. -/
def checkCharset (name : String) (v : Value) : Except Failure String :=
  match v with
  | .str s =>
    if s.toList.contains '\x00' then .error (.charset .nullCharacter)
    else if (Charset.find? s).isSome then .ok s
    else refuse (.charset name) v
  | .brokenText _ => .error .unencodable
  | _ => refuse (.charset name) v

/-- Checks that the structured report has a name. -/
def checkReport (v : Value) : Except Failure Value :=
  if v.truthy then .ok v else .error (.config .noReport)

/-- Makes settings from the values of fields. -/
def ofFields (fields : List (Value × Value)) : Except Failure Settings := do
  let value := fieldOf fields
  let topCount ← checkCount (value "top_n")
  let includes ← checkPatterns "include_patterns" (value "include_patterns")
  let excludes ← checkPatterns "exclude_patterns" (value "exclude_patterns")
  let keepLines ← checkChoice (value "preserve_line_numbers")
  let primary ← checkCharset "primary_encoding" (value "primary_encoding")
  let fallback ← checkCharset "fallback_encoding" (value "fallback_encoding")
  let reportJson ← checkReport (value "report_json")
  return {
    sourceRoot := value "source_root", includes, excludes, primary, fallback, keepLines,
    outputDir := value "output_dir", reportJson, reportText := value "report_txt",
    errorFile := value "error_file", generatedDir := value "generated_dir", topCount,
    javaPackage := value "java_package", supportPackage := value "support_package",
    logDir := value "log_dir", logLevel := value "log_level" }

/-- Whether a field has this name. -/
def isKnown (key : Value) : Bool :=
  defaults.any fun d => key.same (.str d.1)

/-- Logs a key that is not known. -/
def logUnknown (key : Value) : Act Unit := do
  if !key.isShowable then throw .unshowable
  Act.log .warning appPhase ("알 수 없는 설정 키 무시: " ++ key.text)

/-- Makes settings from the values of fields and logs the keys that are not known. -/
def make (fields : List (Value × Value)) : Act Settings := do
  ((fields.map (·.1)).filter fun k => !isKnown k).forM logUnknown
  Act.ofExcept id (ofFields fields)

/-! ## Paths -/

/-- The path that a value names. -/
def pathOf : Value → Except Failure Path
  | .str s => .ok (Path.parse s)
  | .brokenText _ => .error .unencodable
  | v => .error (.notPath v)

/-- The path that a value names, seen from a directory. -/
def pathIn (dir : Path) : Value → Except Failure Path
  | .str s => .ok (dir.joinText s)
  | .brokenText _ => .error .unencodable
  | v => .error (.notPath v)

/-- The directory for all output. -/
def outputPath (s : Settings) : Except Failure Path :=
  pathOf s.outputDir

/-- A path below the directory for all output. -/
def below (s : Settings) (v : Value) : Except Failure Path := do
  pathIn (← s.outputPath) v

/-- A path below the directory for all output that may be left out. -/
def below? (s : Settings) (v : Value) : Except Failure (Option Path) := do
  if v.truthy then return some (← s.below v) else return none

/-- The path of the structured report. -/
def reportJsonPath (s : Settings) : Except Failure Path :=
  s.below s.reportJson

/-- The path of the report for people. -/
def reportTextPath? (s : Settings) : Except Failure (Option Path) :=
  s.below? s.reportText

/-- The path of the list of problems. -/
def errorFilePath? (s : Settings) : Except Failure (Option Path) :=
  s.below? s.errorFile

/-- The directory of the Java files. -/
def generatedPath (s : Settings) : Except Failure Path :=
  s.below s.generatedDir

/-- The directory of the log files. -/
def logPath (s : Settings) : Except Failure Path :=
  s.below s.logDir

/-! ## What the settings describe

The codecs are looked up by their names, for some of them in a library.
-/

/-- How source files are read. -/
def reader (s : Settings) (library : Charset.Library) : Except Failure SourceReader := do
  return ⟨← pathOf s.sourceRoot, .named library s.primary, .named library s.fallback⟩

/-- The scanner of the settings. -/
def scanner (s : Settings) (library : Charset.Library) : Except Failure Scanner := do
  return ⟨← s.reader library, s.includes, s.excludes, s.keepLines⟩

/-- The generator of the settings for a registry. -/
def generator (s : Settings) (library : Charset.Library) (registry : Registry) :
    Except Failure Generator := do
  let output ← s.generatedPath
  return ⟨registry, ← s.reader library, output, s.topCount, ⟨s.javaPackage, s.supportPackage⟩⟩

/-! ## The configuration file -/

/-- The document that the bytes of a configuration file stand for. -/
def parse (path : String) (bytes : List UInt8) : Except Failure (Option Markup.Document) :=
  match Report.decodeText bytes with
  | .error fault => .error (.charset (.bytes fault))
  | .ok text =>
    match Markup.parse text with
    | .ok d => .ok d
    | .error .malformed => .error (.config (.malformed path))
    | .error fault => .error (.markup fault)

/-- The document that sets the fields. An empty configuration sets none and is logged. -/
def documentOf (document : Option Markup.Document) : Act Markup.Document := do
  match document with
  | some d =>
    if d.fields?.isSome then return d
    else if !d.isNull then throw (.config .notMapping)
  | none => pure ()
  Act.log .warning appPhase "빈 설정 파일입니다, 기본값 사용"
  return .empty

/-- Sets the values of other fields; an absent value sets nothing. -/
def override (document : Markup.Document) (overrides : List (String × Value)) : Markup.Document :=
  overrides.foldl
    (fun d o =>
      match o.2 with
      | .null => d
      | v => d.put o.1 v)
    document

/-- The fields that a document sets. The values of keys that are not known do not count. -/
def fieldsOf (document : Markup.Document) : List (Value × Value) :=
  (document.fields?.getD []).map fun f =>
    (f.1, if isKnown f.1 then document.valueAt f.2 else .null)

/-- Loads the settings from a configuration file. -/
def load (path : String) (overrides : List (String × Value)) : Act Settings := do
  let file := Path.parse path
  if !(← Act.askFiles (·.contains file)) then throw (.config (.missing path))
  Act.log .info appPhase ("설정 파일 로드: " ++ file.toText)
  let bytes ← Act.askFiles (·.read file)
  let document ← documentOf (← Act.ofExcept id (parse path bytes))
  let settings ← make (fieldsOf (override document overrides))
  if settings.sourceRoot.truthy then return settings else throw (.config .noSourceRoot)

end Settings

end StructAtlas
