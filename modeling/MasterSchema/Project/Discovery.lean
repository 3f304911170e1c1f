import MasterSchema.FileTree.Traversal
import MasterSchema.Project.DataFile
import MasterSchema.Validation

/-!
# Discovering records

The records of a project are the data files below one directory. A file's name says the data type
of its records, the directories on the way to it say the namespace. What is below the directory is
visited depth first in the order of names. A file of another format is skipped; a second file for
one data type and a directory that cannot be listed end the discovery.
-/

namespace MasterSchema

/-- A file of records and what it holds records of. -/
structure RecordFile where
  path : Path
  ns : Namespace
  dataType : String
  deriving DecidableEq, Repr

namespace RecordFile

/-- The path of a file below a directory, given by the names on the way. -/
def pathBelow (dir : Path) (names : List String) : Path :=
  names.foldl (fun path name => path.join ⟨name⟩) dir

/-- The namespace of a file, given by the names on the way to it. -/
def namespaceOf (names : List String) : Namespace :=
  Namespace.ofDirectory (Path.ofParts names.dropLast)

/-- The record file at a path, unless it is no data file. -/
def ofNames? (dir : Path) (names : List String) : Option RecordFile :=
  let path := pathBelow dir names
  match DataFormat.ofPath? path, path.stem with
  | some _, some dataType => some ⟨path, namespaceOf names, dataType⟩
  | _, _ => none

/-- Whether two files hold records of the same data type. -/
def sameType (a b : RecordFile) : Bool :=
  a.ns == b.ns && a.dataType == b.dataType

end RecordFile

namespace Discovery

/-- The names on the way to every file below a location, in order. -/
def filesBelow (t : FileTree) (place : Location) : List (List String) :=
  (t.below place).filterMap fun (names, e) =>
    match e with
    | .file _ => some names
    | .directory => none

/-- Loads the records of one file. -/
def bucket (fs : FileSystem) (key : String) (file : RecordFile) : Logged LoadError RecordBucket :=
  match DataFile.rootTable fs file.path key with
  | .error e => .fail e
  | .ok records =>
    ⟨.ok ⟨file.ns, file.dataType, records⟩, [.recordsLoaded file.path records.length]⟩

/-- Visits what is below `dir` in order, `seen` being the files before. -/
def visit (fs : FileSystem) (dir : Path) (key : String) (seen : List RecordFile) :
    List (Location × Entry) → Logged LoadError (List RecordBucket)
  | [] => .ok []
  | (names, .directory) :: rest =>
    match fs.find (RecordFile.pathBelow dir names) with
    | .error fault => .fail (.unlistable dir (RecordFile.pathBelow dir names) fault)
    | .ok _ => visit fs dir key seen rest
  | (names, .file _) :: rest =>
    match RecordFile.ofNames? dir names with
    | none =>
      .after [.fileSkipped (RecordFile.pathBelow dir names)] (visit fs dir key seen rest)
    | some file =>
      match seen.find? file.sameType with
      | some before => .fail (.conflictingFormats before.path file.path)
      | none =>
        (bucket fs key file).andThen fun first =>
          (visit fs dir key (seen ++ [file]) rest).andThen fun more => .ok (first :: more)

/-- The records of all data files below a directory. -/
def discover (fs : FileSystem) (dir : Path) (key : String) :
    Logged LoadError (List RecordBucket) :=
  match fs.find dir with
  | .ok (place, .directory) => visit fs dir key [] (fs.tree.traversal place)
  | _ => .fail (.missingDirectory dir)

end Discovery

end MasterSchema
