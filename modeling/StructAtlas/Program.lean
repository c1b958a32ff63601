import StructAtlas.CommandLine
import StructAtlas.Logging
import StructAtlas.Settings

set_option autoImplicit false

/-!
# The program

A run loads the settings, sets up the log, and then analyses the sources or generates Java files.
Every failure ends in one line of the log and in exit code one. The decoders of the less usual
character sets come from a library.
-/

namespace StructAtlas.Program

/-- How a run ends: with a code of the program, or with one of the command line after a text on how
to use it. -/
inductive Exit where
  | code (n : Nat)
  | usage (n : Nat)
deriving Repr, DecidableEq

/-- Sets up the log. -/
def configureLog (s : Settings) : Act Unit := do
  let _ ← Logging.setConsole s.logLevel
  let _ ← Logging.setupFiles (← Act.ofExcept id s.logPath) s.logLevel

/-- Scans the sources and writes the reports. -/
def analyze (library : Charset.Library) (s : Settings) : Act Unit := do
  Act.openProblems (← Act.ofExcept id s.errorFilePath?) true
  let scanner ← Act.ofExcept id (s.scanner library)
  let tally ← scanner.scan Registry.empty
  Report.writeJson tally.registry (← Act.ofExcept id s.reportJsonPath)
  match ← Act.ofExcept id s.reportTextPath? with
  | some path => Report.writeText tally.registry path
  | none => Act.log .warning appPhase "report_txt 미지정, TXT 보고서 생략"
  let count := (← get).problems.entries.length
  if count != 0 then Act.log .warning appPhase ("오류 " ++ toString count ++ "건 기록됨")

/-- The text of the name of a class. -/
def className (name : Name) : Act String :=
  match name.toValue.codes? with
  | some _ => return name.shown
  | none => throw (.classNotText name)

/-- Reads the report and generates Java files. -/
def generate (library : Charset.Library) (s : Settings) : Act Unit := do
  let registry ← Report.load (← Act.ofExcept id s.reportJsonPath)
  Act.openProblems (← Act.ofExcept id s.errorFilePath?) false
  modify fun session => { session with lines := [] }
  let generator ← Act.ofExcept id (s.generator library registry)
  let result ← generator.generate
  result.classes.forM fun c => do
    let names ← c.2.mapM className
    Act.log .info appPhase (c.1 ++ ": " ++ ", ".intercalate names)

/-- The value that an option is set to. -/
def valueOf : Setting → Value
  | .text s => .str s
  | .count n => .int n
  | .empty => .list []

/-- The fields that the command line sets. -/
def overrides (o : Options) : List (String × Value) :=
  let value (s : Option Setting) : Value := (s.map valueOf).getD .null
  [("source_root", value o.sourceRoot), ("output_dir", value o.outputDir),
   ("log_level", value o.logLevel), ("top_n", value o.topCount)]

/-- Loads the settings of a run. -/
def loadSettings (o : Options) : Act Settings :=
  match o.config with
  | .text path => Settings.load path (overrides o)
  | other => throw (.notPath (valueOf other))

/-- Runs a command. -/
def execute (library : Charset.Library) (o : Options) : Act Unit := do
  let settings ← loadSettings o
  configureLog settings
  match o.command with
  | .analyze => analyze library settings
  | .generate => generate library settings

/-- The last line of a run that failed. -/
def lastLine (e : Failure) : String :=
  match e with
  | .config _ => "Error: " ++ e.message
  | .sourceRoot _ => "Error: " ++ e.message
  | .sourceListing .. => "Error: " ++ e.message
  | .reportMissing _ => "Error: " ++ e.message
  | .report .. => "Error: " ++ e.message
  | _ => "Error in main: " ++ e.kindName ++ " - " ++ e.message

/-- Runs a command and turns a failure into a line of the log. -/
def finish (library : Charset.Library) (o : Options) (s : Session) : Exit × Session :=
  match execute library o s with
  | .ok _ s => (.code 0, s)
  | .error e s => (.code 1, s.log ⟨.error, appPhase, lastLine e⟩)

/-- Runs the program. -/
def run (library : Charset.Library) (args : List String) (s : Session) : Exit × Session :=
  match CommandLine.parse args with
  | .run o => finish library o s
  | .help => (.usage 0, s)
  | .misuse => (.usage 2, s)
  | .noCommand => (.code 1, s)

end StructAtlas.Program
