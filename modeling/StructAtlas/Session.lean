import StructAtlas.Failure
import StructAtlas.Journal
import StructAtlas.Problem
import StructAtlas.Text.Uppercase

set_option autoImplicit false

/-!
# Sessions

A session is everything that operations share and change: the files, the journal, the list of
problems and the source lines read so far. An operation is an `Act`: it changes the session and
returns a value or fails. What an operation did before it failed stays done.
-/

namespace StructAtlas

/-- The problems of a run and the file that lists them, if there is one. -/
structure ProblemList where
  path : Option Path
  entries : List Problem
deriving Repr, DecidableEq, Inhabited

/-- The list with one more problem. -/
def ProblemList.add (l : ProblemList) (p : Problem) : ProblemList :=
  { l with entries := l.entries ++ [p] }

/-- What operations share and change. The lines are those of source files that were read for their
bodies. -/
structure Session where
  files : FileTree
  journal : Journal
  problems : ProblemList
  lines : List (WideText × List (List Char))
deriving Inhabited

/-- An operation on a session. -/
abbrev Act := EStateM Failure Session

namespace Session

/-- A session with files and a journal, without problems and lines. -/
def start (files : FileTree) (journal : Journal) : Session :=
  ⟨files, journal, ⟨none, []⟩, []⟩

/-- The session after a log record. -/
def log (s : Session) (r : Record) : Session :=
  { s with journal := s.journal.push r, files := s.journal.deliver r s.files }

end Session

namespace Act

/-- Writes a log record. -/
def log (severity : Severity) (phase message : String) : Act Unit :=
  modify (·.log ⟨severity, phase, message⟩)

/-- The value or the failure of an operation, as a value. -/
def attempt {α : Type} (act : Act α) : Act (Except Failure α) := fun s =>
  match act s with
  | .ok a s => .ok (.ok a) s
  | .error e s => .ok (.error e) s

theorem attempt_ok {α : Type} {act : Act α} {s t : Session} {a : α} (h : act s = .ok a t) :
    act.attempt s = .ok (.ok a) t := by
  simp [attempt, h]

theorem attempt_error {α : Type} {act : Act α} {s t : Session} {e : Failure}
    (h : act s = .error e t) : act.attempt s = .ok (.error e) t := by
  simp [attempt, h]

/-- The value of a result, or its failure. -/
def ofExcept {ε α : Type} (wrap : ε → Failure) (r : Except ε α) : Act α :=
  match r with
  | .ok a => pure a
  | .error e => throw (wrap e)

/-- Changes the files, or fails as the operating system does. -/
def changeFiles (change : FileTree → Except FileFault FileTree) : Act Unit := fun s =>
  match change s.files with
  | .ok files => .ok () { s with files := files }
  | .error fault => .error (.file fault) s

/-- Asks a question about the files. -/
def askFiles {α : Type} (ask : FileTree → Except FileFault α) : Act α := fun s =>
  match ask s.files with
  | .ok a => .ok a s
  | .error fault => .error (.file fault) s

/-- Writes a text file. -/
def writeText (path : Path) (text : String) : Act Unit :=
  changeFiles (·.write path (Charset.Utf8.bytesOf text))

/-- Creates a directory and the directories above it. -/
def makeDirectories (path : Path) : Act Unit :=
  changeFiles (·.makeDirectories path)

/-- Runs an operation and hands a refusal of the operating system to a handler. A null character in
a path is no such refusal. -/
def onRefusal {α : Type} (act : Act α) (handle : FileFault → Act α) : Act α := do
  match ← act.attempt with
  | .ok a => return a
  | .error (.file fault) =>
    if fault.kind == .nullCharacter then throw (.file fault) else handle fault
  | .error e => throw e

/-- The bracket behind the name of a stage. -/
def contextText (context : List (String × String)) : String :=
  if context.isEmpty then ""
  else " (" ++ ", ".intercalate (context.map fun c => c.1 ++ "=" ++ c.2) ++ ")"

/-- Runs a named part of the work between two log records, one at its start and one that says how it
ended. -/
def stage {α : Type} (name phase : String) (context : List (String × String)) (act : Act α) :
    Act α := do
  log .info phase ("[시작] " ++ name ++ contextText context)
  let outcome ← act.attempt
  let elapsed := " (" ++ (← get).journal.stamps.elapsed ++ ")"
  match outcome with
  | .ok a =>
    log .success phase ("[완료] " ++ name ++ elapsed)
    return a
  | .error e =>
    log .error phase ("[실패] " ++ name ++ ": " ++ e.message ++ elapsed)
    throw e

/-- Starts a new list of problems. A file that lists them is emptied on request. -/
def openProblems (path : Option Path) (empty : Bool) : Act Unit := do
  modify fun s => { s with problems := ⟨path, []⟩ }
  match path with
  | some path =>
    if empty then
      onRefusal (do makeDirectories path.parent; writeText path "") fun fault =>
        log .error appPhase ("오류 파일 초기화 실패: " ++ path.toText ++ ": " ++ fault.message)
  | none => return

/-- Adds a problem to the list and to its file. A file that cannot be written is only logged. -/
def report (kind : ProblemKind) (message : String) : Act Unit := do
  let problem : Problem := ⟨kind, message⟩
  modify fun s => { s with problems := s.problems.add problem }
  match (← get).problems.path with
  | some path =>
    onRefusal
      (do makeDirectories path.parent
          changeFiles (·.append path (Charset.Utf8.bytesOf (problem.toText ++ "\n"))))
      fun fault =>
        log .error appPhase ("오류 파일 기록 실패: " ++ path.toText ++ ": " ++ fault.message)
  | none => return

end Act

end StructAtlas
