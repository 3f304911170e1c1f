import MasterSchema.FileTree.Walk

/-!
# Changing files

Each change gives its result and the tree it leaves. A change that fails may have been made in
part: `createDirectories` keeps what it created before it failed, and `removeDirectory` what it
emptied.
-/

namespace MasterSchema

/-- A result and the tree that a change leaves. -/
structure Changed (α : Type) where
  result : Except FileFault α
  tree : FileTree

namespace FileSystem

/-- The same working directory over another tree. -/
def withTree (fs : FileSystem) (t : FileTree) : FileSystem := ⟨t, fs.working⟩

/-- A change that fails and leaves everything as it was. -/
def refuse {α : Type} (fs : FileSystem) (e : FileFault) : Changed α := ⟨.error e, fs.tree⟩

/-- A new entry under a name that is not taken. -/
def place (fs : FileSystem) (dir : Location) (name : String) (e : Entry) : Changed Unit :=
  if h : fs.tree.HasRoom dir name then ⟨.ok (), fs.tree.add dir name e h⟩
  else if maxNameBytes < name.utf8ByteSize then fs.refuse .nameTooLong
  else fs.refuse .alreadyExists

/-! ## 1. Directories -/

/-- Makes one directory. -/
def createDirectory (fs : FileSystem) (p : Path) : Changed Unit :=
  match fs.target p with
  | .error e => fs.refuse e
  | .ok (.named dir name _) => fs.place dir name .directory
  | .ok _ => fs.refuse .alreadyExists

/-- Whether making a directory may count as done: it was made, or it was there. -/
def madeOrThere (fs : FileSystem) (p : Path) (made : Changed Unit) : Changed Unit :=
  match made.result with
  | .ok () => made
  | .error _ => if fs.isDirectory p then ⟨.ok (), made.tree⟩ else made

/-- Makes the first directory of a list; where something above it is missing, the ones behind it
    in the list are made before. The empty path is there already. -/
def createFirst (fs : FileSystem) : List Path → Changed Unit
  | [] => ⟨.ok (), fs.tree⟩
  | p :: above =>
    if p.text == "" then ⟨.ok (), fs.tree⟩
    else
      match (fs.createDirectory p).result with
      | .error .notFound =>
        match fs.createFirst above with
        | ⟨.error e, t⟩ => ⟨.error e, t⟩
        | ⟨.ok (), t⟩ => (fs.withTree t).madeOrThere p ((fs.withTree t).createDirectory p)
      | _ => fs.madeOrThere p (fs.createDirectory p)

/-- Makes a directory and all missing ones above it. -/
def createDirectories (fs : FileSystem) (p : Path) : Changed Unit :=
  fs.createFirst p.ancestors

/-! ## 2. Files -/

/-- Makes a file of the content, or gives the file that is there this content. -/
def writeFile (fs : FileSystem) (p : Path) (content : ByteArray) : Changed Unit :=
  match fs.target p with
  | .error e => fs.refuse e
  | .ok (.named dir name false) =>
    match fs.tree.get? (dir ++ [name]) with
    | none => fs.place dir name (.file content)
    | some .directory => fs.refuse .isDirectory
    | some (.file _) => ⟨.ok (), fs.tree.overwrite (dir ++ [name]) content⟩
  | .ok _ => fs.refuse .isDirectory

/-- Writes a file, and makes the directories above it before. -/
def writeDeep (fs : FileSystem) (p : Path) (content : ByteArray) : Changed Unit :=
  match p.parent with
  | none => fs.writeFile p content
  | some dir =>
    match fs.createDirectories dir with
    | ⟨.error e, t⟩ => ⟨.error e, t⟩
    | ⟨.ok (), t⟩ => (fs.withTree t).writeFile p content

/-! ## 3. Removal -/

/-- Takes away a directory that is empty. -/
def removeEmpty (fs : FileSystem) (p : Path) : Changed Unit :=
  match fs.target p with
  | .error e => fs.refuse e
  | .ok .here => fs.refuse .invalidArgument
  | .ok .up => fs.refuse .notEmpty
  | .ok .root => fs.refuse .busy
  | .ok (.named dir name _) =>
    match fs.tree.get? (dir ++ [name]) with
    | none => fs.refuse .notFound
    | some (.file _) => fs.refuse .notDirectory
    | some .directory =>
      if fs.tree.hasBelow (dir ++ [name]) then fs.refuse .notEmpty
      else ⟨.ok (), fs.tree.remove (dir ++ [name])⟩

/-- Empties a directory and takes it away. The path is walked once more when the directory is
    empty; that nothing is found then is no failure. -/
def removeDirectory (fs : FileSystem) (p : Path) : Changed Unit :=
  match fs.find p with
  | .error e => fs.refuse e
  | .ok (_, .file _) => fs.refuse .notDirectory
  | .ok (place, .directory) =>
    let emptied := fs.withTree (fs.tree.removeBelow place)
    match emptied.removeEmpty p with
    | ⟨.error .notFound, t⟩ => ⟨.ok (), t⟩
    | other => other

/-- Takes a file away. -/
def removeFile (fs : FileSystem) (p : Path) : Changed Unit :=
  match fs.target p with
  | .error e => fs.refuse e
  | .ok (.named dir name slashed) =>
    match fs.tree.get? (dir ++ [name]) with
    | none => fs.refuse .notFound
    | some .directory => fs.refuse .isDirectory
    | some (.file _) =>
      if slashed then fs.refuse .notDirectory
      else ⟨.ok (), fs.tree.remove (dir ++ [name])⟩
  | .ok _ => fs.refuse .isDirectory

/-- Takes a file away, or a directory with all below it. -/
def removeAny (fs : FileSystem) (p : Path) : Changed Unit :=
  if fs.isDirectory p then fs.removeDirectory p else fs.removeFile p

end FileSystem

end MasterSchema
