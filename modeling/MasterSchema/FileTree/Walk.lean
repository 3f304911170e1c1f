import MasterSchema.FileTree.Basic

/-!
# Finding files by path

A path is walked through a file tree part by part, each part from a directory that is there; `..`
leads back to the directory before. `find` gives the place and the entry that a path leads to,
`target` the place at which a path wants something made or removed.

No entry of a tree leads elsewhere, so a walk that succeeds ends where the folded path says.

A working directory is a location like any other. Once a run has removed it no relative path leads
on from it, not even by `..`; an operating system still knows the directory above a removed one and
goes there. That concerns runs whose working directory lies in the output directory only.
-/

namespace MasterSchema

/-! ## 1. What can go wrong -/

/-- Why a file operation fails. -/
inductive FileFault where
  | notFound
  | busy
  | alreadyExists
  | notDirectory
  | isDirectory
  | invalidArgument
  | nameTooLong
  | notEmpty
  /-- A zero byte in a path. -/
  | zeroInName
  /-- A file that is no UTF-8 text. -/
  | notText
  deriving DecidableEq, Repr

def FileFault.message : FileFault → String
  | .notFound => "No such file or directory (os error 2)"
  | .busy => "Device or resource busy (os error 16)"
  | .alreadyExists => "File exists (os error 17)"
  | .notDirectory => "Not a directory (os error 20)"
  | .isDirectory => "Is a directory (os error 21)"
  | .invalidArgument => "Invalid argument (os error 22)"
  | .nameTooLong => "File name too long (os error 36)"
  | .notEmpty => "Directory not empty (os error 39)"
  | .zeroInName => "file name contained an unexpected NUL byte"
  | .notText => "stream did not contain valid UTF-8"

/-- A file tree seen from a working directory. -/
structure FileSystem where
  tree : FileTree
  working : Location

/-! ## 2. Steps -/

namespace FileTree

/-- Whether a location is that of a directory, and if not, what is wrong with it. -/
def enter (t : FileTree) (place : Location) : Except FileFault Unit :=
  match t.get? place with
  | none => .error .notFound
  | some (.file _) => .error .notDirectory
  | some .directory => .ok ()

/-- One part of a path taken from a directory. What it leads to need not be there. -/
def step (t : FileTree) (place : Location) (part : String) : Except FileFault Location :=
  match t.enter place with
  | .error e => .error e
  | .ok () =>
    if Path.isVacuous part then .ok place
    else if part == ".." then .ok place.dropLast
    else if maxNameBytes < part.utf8ByteSize then .error .nameTooLong
    else .ok (place ++ [part])

/-- Parts of a path taken one after the other. -/
def walk (t : FileTree) (place : Location) : List String → Except FileFault Location
  | [] => .ok place
  | part :: rest =>
    match t.step place part with
    | .error e => .error e
    | .ok next => t.walk next rest

end FileTree

/-! ## 3. Paths -/

namespace Path

/-- How many bytes a path may have at most. -/
def maxBytes : Nat := 4095

/-- What is wrong with a path whatever the tree. -/
def fault? (p : Path) : Option FileFault :=
  if p.text.toList.contains '\x00' then some .zeroInName
  else if p.text == "" then some .notFound
  else if maxBytes < p.text.utf8ByteSize then some .nameTooLong
  else none

/-- The parts without the empty ones at the end, that is, without slashes at the end. -/
def namedParts (p : Path) : List String :=
  (p.parts.reverse.dropWhile (· == "")).reverse

end Path

/-- Where a path wants something made or removed. -/
inductive Target where
  /-- A name in a directory that is there; whether slashes follow the name. -/
  | named (dir : Location) (name : String) (slashed : Bool)
  | here
  | up
  | root
  deriving DecidableEq, Repr

namespace FileSystem

/-- Where a path starts. -/
def start (fs : FileSystem) (p : Path) : Location :=
  if p.isAbsolute then [] else fs.working

/-- The place a path leads to and the entry that is there. -/
def find (fs : FileSystem) (p : Path) : Except FileFault (Location × Entry) :=
  match p.fault? with
  | some e => .error e
  | none =>
    match fs.tree.walk (fs.start p) p.parts with
    | .error e => .error e
    | .ok place =>
      match fs.tree.get? place with
      | none => .error .notFound
      | some e => .ok (place, e)

/-- The target of a path: all parts but the last are walked, the last is taken as it is. -/
def target (fs : FileSystem) (p : Path) : Except FileFault Target :=
  match p.fault? with
  | some e => .error e
  | none =>
    match p.namedParts.getLast? with
    | none => .ok .root
    | some last =>
      match fs.tree.walk (fs.start p) p.namedParts.dropLast with
      | .error e => .error e
      | .ok dir =>
        match fs.tree.enter dir with
        | .error e => .error e
        | .ok () =>
          if last == "." then .ok .here
          else if last == ".." then .ok .up
          else .ok (.named dir last p.endsInSlash)

/-! ## 4. Looking -/

def isFile (fs : FileSystem) (p : Path) : Bool :=
  match fs.find p with
  | .ok (_, .file _) => true
  | _ => false

def isDirectory (fs : FileSystem) (p : Path) : Bool :=
  match fs.find p with
  | .ok (_, .directory) => true
  | _ => false

/-- The text of a file. -/
def readText (fs : FileSystem) (p : Path) : Except FileFault String :=
  match fs.find p with
  | .error e => .error e
  | .ok (_, .directory) => .error .isDirectory
  | .ok (_, .file content) =>
    match String.fromUTF8? content with
    | none => .error .notText
    | some text => .ok text

end FileSystem

end MasterSchema
