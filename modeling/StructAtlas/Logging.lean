import StructAtlas.Session

set_option autoImplicit false

/-!
# Setting up the log

The console has one outlet, which is replaced when its level changes. The old outlet is removed
before the new level is looked at. So a level that does not exist leaves the console without outlet,
and the next change fails because there is nothing to remove.

Log files are one for all records and one for each phase. Their paths are templates, which are
filled in before the files are created. Each file is created before its level is looked at.

The number of an outlet is taken first of all, so a level that does not exist uses up a number.
-/

namespace StructAtlas.Logging

/-- The name of a level in capital letters. Bytes can be capitalised, but they are no name. -/
def levelName : Value → Except Failure (Option String)
  | .str s => .ok (some (String.ofList (Text.upper s.toList)))
  | .brokenText codes =>
    .ok (some (String.ofList (Text.upper (Value.brokenText codes).text.toList)))
  | .bytes _ => .ok none
  | v => .error (.notText v)

/-- The severity of a name. -/
def severityOf : Option String → Except Failure Severity
  | none => .error .byteLevel
  | some name =>
    match Severity.ofName? name with
    | some severity => .ok severity
    | none => .error (.unknownLevel name)

/-- Removes an outlet, which has to be there. -/
def removeOutlet (id : Nat) : Act Unit := do
  if (← get).journal.isLive id then modify fun s => { s with journal := s.journal.remove id }
  else throw (.goneOutlet id)

/-- Removes the console outlet. -/
def removeConsole : Act Unit := do
  match (← get).journal.consoleId with
  | none => return
  | some id => removeOutlet id

/-- Takes the number of the next outlet. -/
def takeNumber : Act Nat := do
  let number := (← get).journal.nextId
  modify fun s => { s with journal := s.journal.takeNumber }
  return number

/-- Opens the console outlet at a level, in place of an earlier one, and returns its number. -/
def setConsole (level : Value) : Act Nat := do
  removeConsole
  let name ← Act.ofExcept id (levelName level)
  let number ← takeNumber
  let severity ← Act.ofExcept id (severityOf name)
  modify fun s => { s with journal := s.journal.openConsole number severity }
  return number

/-- The path of a log file, given as a template. -/
def filePath (template : Path) : Act Path := do
  let time := (← get).journal.stamps.time
  let text ← Act.ofExcept .template (Template.fill time template.toText)
  return (Path.parse text).collapse

/-- Opens an outlet for a log file. -/
def addFile (template : Path) (level : Value) (phase : Option String) : Act Unit := do
  let name ← Act.ofExcept id (levelName level)
  let number ← takeNumber
  let path ← filePath template
  Act.makeDirectories path.parent
  Act.changeFiles (·.append path [])
  let severity ← Act.ofExcept id (severityOf name)
  modify fun s => { s with journal := s.journal.openFile number severity phase path }

/-- Removes outlets for log files, given from the last one to the first one. The number of an outlet
is forgotten before the outlet is removed. -/
def removeFiles : List Nat → Act Unit
  | [] => return
  | id :: ids => do
    modify fun s => { s with journal := { s.journal with fileIds := ids.reverse } }
    removeOutlet id
    removeFiles ids

/-- Opens the outlets for the log files in a directory, in place of earlier ones, and returns their
numbers. -/
def setupFiles (dir : Path) (level : Value) : Act (List Nat) := do
  removeFiles (← get).journal.fileIds.reverse
  Act.makeDirectories dir
  addFile (dir.child "app.log") level none
  addFile (dir.child "analysis.log") level (some analysisPhase)
  addFile (dir.child "generate.log") level (some generatePhase)
  Act.log .info appPhase ("로그 디렉토리: " ++ dir.toText)
  return (← get).journal.fileIds

/-- Writes a record at a level given by name. Without outlets the name is not looked at. -/
def logAt (level phase message : String) : Act Unit := do
  if (← get).journal.outlets.isEmpty then return
  let severity ← Act.ofExcept id (severityOf (some level))
  Act.log severity phase message

end StructAtlas.Logging
