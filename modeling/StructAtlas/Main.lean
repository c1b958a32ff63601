import StructAtlas.Program

set_option autoImplicit false

/-!
# The command

The files that a run may read are named on standard input, one per line. They are read into a file
tree around the working directory, the program runs on the tree, and the files that it created or
changed are written back. Log records for the console go to standard error.
-/

namespace StructAtlas.Main

/-- Reads the names of files up to the end of a stream. -/
partial def readNames (stream : IO.FS.Stream) (names : List String) : IO (List String) := do
  let line ← stream.getLine
  if line.isEmpty then return names.reverse
  let name := String.ofList (line.toList.takeWhile (· != '\n'))
  readNames stream (if name.isEmpty then names else name :: names)

/-- Adds a file to a tree. -/
def addFile (files : FileTree) (name : String) (bytes : List UInt8) : FileTree :=
  let path := Path.parse name
  match files.makeDirectories path.parent with
  | .error _ => files
  | .ok files =>
    match files.write path bytes with
    | .ok files => files
    | .error _ => files

/-- The tree of the directories down to the working directory. -/
def around (directory : Path) : FileTree :=
  match FileTree.empty.makeDirectories directory with
  | .ok files => { files with home := directory.parts }
  | .error _ => .empty

/-- Reads files into a tree. -/
def readFiles : List String → FileTree → IO FileTree
  | [], files => return files
  | name :: names, files => do
    let bytes ← IO.FS.readBinFile name
    readFiles names (addFile files name bytes.toList)

/-- Writes what a run created or changed. -/
def writeChanges (before : FileTree) : List (List String × Node) → IO Unit
  | [] => return
  | (key, node) :: rest => do
    if before.lookup key != some node then
      let path := "/" ++ "/".intercalate key
      match node with
      | .directory => IO.FS.createDirAll path
      | .file bytes => IO.FS.writeBinFile path ⟨bytes.toArray⟩
    writeChanges before rest

/-- A record as a line on the console. -/
def consoleLine (r : Record) : String :=
  Journal.padded 7 r.severity.name ++ " | " ++ r.message

/-- What log lines show besides their records. -/
def stampsAt (time : Nat) : Stamps :=
  ⟨toString time ++ "ms", "struct-atlas", "0.00s"⟩

/-- How to use the command. -/
def usageText : String :=
  "usage: struct-atlas analyze|generate [-c CONFIG] [--source-root DIR] [--output-dir DIR] "
    ++ "[--log-level LEVEL] [--top-n N]"

/-- Runs the command with arguments. -/
def runWith (args : List String) : IO UInt32 := do
  let directory ← IO.currentDir
  let files ← readFiles (← readNames (← IO.getStdin) []) (around (Path.parse directory.toString))
  let start := Session.start files (.fresh (stampsAt (← IO.monoMsNow)))
  let (exit, session) := Program.run Charset.noLibrary args start
  session.journal.shown.forM fun r => IO.eprintln (consoleLine r)
  writeChanges files session.files.nodes
  match exit with
  | .code n => return UInt32.ofNat n
  | .usage n =>
    IO.eprintln usageText
    return UInt32.ofNat n

end StructAtlas.Main

/-- The entry point of the command. -/
def main (args : List String) : IO UInt32 :=
  StructAtlas.Main.runWith args
