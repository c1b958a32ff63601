import StructAtlas.FileTree
import StructAtlas.Charset.Utf8
import StructAtlas.Log

set_option autoImplicit false

/-!
# Where log records go

A journal has outlets. An outlet takes the records that are severe enough for it and, if it serves
one phase only, belong to that phase. Records go to the console, into memory, or to the end of a log
file, one line per record. Outlets have numbers that are never given twice. A number is taken before
it is clear whether the outlet can be opened, so the numbers of outlets that failed to open are
missing. The journal remembers the number of the console outlet and those of the outlets for the log
files.
-/

namespace StructAtlas

/-- The parts of a log line that differ from run to run: the time of a record, where in the program
it comes from, and how long a stage took. -/
structure Stamps where
  time : String
  origin : String
  elapsed : String
deriving Repr, DecidableEq, Inhabited

/-- Where an outlet puts its records. -/
inductive Sink where
  | console
  | memory
  | file (path : Path)
deriving Repr, DecidableEq

/-- An outlet for records: its number, the least rank that it takes, the phase that it serves if not
all, and where the records go. -/
structure Outlet where
  id : Nat
  threshold : Nat
  phase : Option String
  sink : Sink
deriving Repr, DecidableEq

/-- The outlets of a program, the oldest first, and what went through them: the records shown on the
console and those kept in memory. The number of the console outlet stays remembered when the outlet
is gone. -/
structure Journal where
  outlets : List Outlet
  nextId : Nat
  consoleId : Option Nat
  fileIds : List Nat
  shown : List Record
  kept : List Record
  stamps : Stamps
deriving Repr, DecidableEq, Inhabited

namespace Outlet

/-- Whether an outlet takes a record. -/
def takes (o : Outlet) (r : Record) : Bool :=
  o.threshold ≤ r.severity.rank && (o.phase.isNone || o.phase == some r.phase)

end Outlet

namespace Journal

/-- A journal without outlets. -/
def empty (stamps : Stamps) : Journal :=
  ⟨[], 0, none, [], [], [], stamps⟩

/-- A text filled up with spaces to a width; a longer text stays as it is. -/
def padded (width : Nat) (s : String) : String :=
  s ++ String.ofList (List.replicate (width - s.length) ' ')

/-- The line of a record in a log file. -/
def line (j : Journal) (r : Record) : String :=
  j.stamps.time ++ " | " ++ padded 7 r.severity.name ++ " | " ++ padded 8 r.phase ++ " | "
    ++ j.stamps.origin ++ " | " ++ r.message ++ "\n"

/-- Whether an outlet of a number is there. -/
def isLive (j : Journal) (id : Nat) : Bool :=
  j.outlets.any (·.id == id)

/-- The number of the next outlet is taken. -/
def takeNumber (j : Journal) : Journal :=
  { j with nextId := j.nextId + 1 }

/-- Adds an outlet with a number. -/
def add (j : Journal) (id threshold : Nat) (phase : Option String) (sink : Sink) : Journal :=
  { j with outlets := j.outlets ++ [⟨id, threshold, phase, sink⟩] }

/-- Opens the console outlet and remembers its number. -/
def openConsole (j : Journal) (id : Nat) (severity : Severity) : Journal :=
  { j.add id severity.rank none .console with consoleId := some id }

/-- Opens an outlet for a log file and remembers its number. -/
def openFile (j : Journal) (id : Nat) (severity : Severity) (phase : Option String) (path : Path) :
    Journal :=
  { j.add id severity.rank phase (.file path) with fileIds := j.fileIds ++ [id] }

/-- The journal of a program that has just been started, with a console at the default level. The
number 0 was that of an outlet which the program has replaced. -/
def fresh (stamps : Stamps) : Journal :=
  let replaced := (empty stamps).takeNumber
  replaced.takeNumber.openConsole replaced.nextId .info

/-- Removes the outlet of a number. -/
def remove (j : Journal) (id : Nat) : Journal :=
  { j with outlets := j.outlets.filter (·.id != id) }

/-- Some outlet for this kind of sink takes a record. -/
def reaches (j : Journal) (sink : Sink) (r : Record) : Bool :=
  j.outlets.any fun o => o.sink == sink && o.takes r

/-- The journal after a record. -/
def push (j : Journal) (r : Record) : Journal :=
  { j with
    shown := if j.reaches .console r then j.shown ++ [r] else j.shown
    kept := if j.reaches .memory r then j.kept ++ [r] else j.kept }

/-- Writes a record to the file of one outlet. A file that cannot be written is passed over. -/
def deliverTo (j : Journal) (r : Record) (files : FileTree) (o : Outlet) : FileTree :=
  match o.sink with
  | .file path =>
    if o.takes r then
      match files.append path (Charset.Utf8.bytesOf (j.line r)) with
      | .ok files => files
      | .error _ => files
    else files
  | _ => files

/-- The files after a record was written to the log files. -/
def deliver (j : Journal) (r : Record) (files : FileTree) : FileTree :=
  j.outlets.foldl (j.deliverTo r) files

end Journal

end StructAtlas
