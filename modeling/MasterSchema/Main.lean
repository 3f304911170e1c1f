import MasterSchema.CommandLine.Run
import MasterSchema.FileTree.Difference

/-!
# The command line

Reads the files that a command looks at into a file tree, runs the command on it, and makes the
changes of the tree on disk. Everything that is decided is decided before and after, on the tree.
-/

namespace MasterSchema.Shell

/-- The text of the absolute path to a location. -/
def absolute (place : Location) : String :=
  "/" ++ Text.joined "/" place

/-- The location of an absolute path. -/
def locationOf (text : String) : Location :=
  (Path.fold? [] ⟨text⟩).getD []

/-- Runs an action; what goes wrong gives nothing. -/
def attempt {α : Type} (action : IO α) : IO (Option α) :=
  try
    let a ← action
    pure (some a)
  catch _ => pure none

/-- The entry at a location on disk. -/
def readEntry (place : Location) : IO (Option Entry) := do
  match ← attempt (IO.FS.realPath (absolute place)) with
  | none => pure none
  | some real =>
    if ← real.isDir then pure (some .directory)
    else
      match ← attempt (IO.FS.readBinFile real) with
      | some content => pure (some (.file content))
      | none => pure none

/-- The names in a directory on disk. -/
def namesIn (place : Location) : IO (List String) := do
  match ← attempt (do (← IO.FS.realPath (absolute place)).readDir) with
  | some entries => pure (entries.toList.map (·.fileName))
  | none => pure []

/-- Takes the entry at a location into a tree. -/
def takeEntry (t : FileTree) (place : Location) : IO FileTree := do
  match ← readEntry place with
  | some e => pure (t.insertAt place e)
  | none => pure t

/-- Takes all that is below a location into a tree. -/
partial def takeBelow (t : FileTree) (place : Location) : IO FileTree := do
  let mut t ← takeEntry t place
  if t.get? place = some .directory then
    for name in ← namesIn place do
      t ← takeBelow t (place ++ [name])
  pure t

/-- Takes all entries into a tree that a path passes on its way. -/
def takeWay (fs : FileSystem) (p : Path) : IO FileSystem := do
  let mut t := fs.tree
  for step in p.ancestors.reverse do
    if let some place := step.fold? fs.working then
      t ← takeEntry t place
  pure (fs.withTree t)

/-- Takes all entries into a tree that a path leads to or passes on its way. -/
def takeAll (fs : FileSystem) (p : Path) : IO FileSystem := do
  let fs ← takeWay fs p
  match p.fold? fs.working with
  | none => pure fs
  | some place =>
    let t ← takeBelow fs.tree place
    pure (fs.withTree t)

/-- The directories above a location, from the root on. -/
def above (place : Location) : List Location :=
  (List.range (place.length + 1)).map place.take

/-- The file system of the working directory, as far as a command line looks at it. -/
def snapshot (invocation : CommandLine.Invocation) : IO FileSystem := do
  let working := locationOf (← IO.currentDir).toString
  let tree ← (above working).foldlM takeEntry .empty
  let fs ← takeWay ⟨tree, working⟩ invocation.config
  match Config.load fs invocation.config with
  | .error _ => pure fs
  | .ok config =>
    let fs ← [config.schemaPath, config.idRegistryPath].foldlM takeWay fs
    [config.recordsDir, config.outputDir].foldlM takeAll fs

/-- Takes an entry away from the disk. -/
def removeEntry (x : Location × Entry) : IO Unit :=
  match x.2 with
  | .directory => IO.FS.removeDir (absolute x.1)
  | .file _ => IO.FS.removeFile (absolute x.1)

/-- Writes an entry to the disk. -/
def writeEntry (x : Location × Entry) : IO Unit :=
  match x.2 with
  | .directory => IO.FS.createDir (absolute x.1)
  | .file content => IO.FS.writeBinFile (absolute x.1) content

/-- Makes the changes on disk that lead from one tree to another. -/
def apply (before after : FileTree) : IO Unit := do
  for x in before.gone after do removeEntry x
  for x in before.fresh after do writeEntry x

/-- What a command line without a command is answered. -/
def usage : String :=
  "commands: generate, validate, id QUERY; options: --config PATH, -v, -q, -h"

/-- Runs a command and tells what it did. -/
def perform (invocation : CommandLine.Invocation) : IO UInt32 := do
  let fs ← snapshot invocation
  let ending := CommandLine.run invocation fs
  apply fs.tree ending.tree
  for e in ending.log do IO.eprintln e.line
  IO.print (Text.ofLines ending.output)
  if let some line := ending.failure then IO.eprintln line
  pure (UInt32.ofNat ending.code)

end MasterSchema.Shell

/-- Reads the arguments and does what they ask for. -/
def main (args : List String) : IO UInt32 := do
  match MasterSchema.CommandLine.read args with
  | .error .help =>
    IO.println MasterSchema.Shell.usage
    pure 0
  | .error .usage =>
    IO.eprintln MasterSchema.Shell.usage
    pure 2
  | .ok invocation => MasterSchema.Shell.perform invocation
