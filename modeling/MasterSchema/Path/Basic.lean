import MasterSchema.Text

/-!
# Paths

A path is the text it was written as; nothing is cleaned up until it is asked for.

* `join` appends textually, an absolute path replaces what stood before it;
* `components` reads the text: empty parts and all `.` parts but a leading one vanish;
* `parent`, `fileName`, `stem` and `extension` follow from the components.
-/

namespace MasterSchema

/-- A path, as written. -/
structure Path where
  text : String
  deriving DecidableEq, Repr

/-- What a path is made of. -/
inductive Component where
  | root
  | here
  | up
  | name (text : String)
  deriving DecidableEq, Repr

namespace Component

def text : Component → String
  | .root => "/"
  | .here => "."
  | .up => ".."
  | .name n => n

end Component

namespace Path

/-! ## 1. Parts of the text -/

/-- The parts between slashes, empty ones included. -/
def parts (p : Path) : List String :=
  (p.text.toList.splitOn '/').map String.ofList

def isAbsolute (p : Path) : Bool :=
  p.text.toList.head? == some '/'

/-- Whether the text ends with a slash. -/
def endsInSlash (p : Path) : Bool :=
  p.text.toList.getLast? == some '/'

/-- A part that names nothing: empty, or the directory it stands in. -/
def isVacuous (part : String) : Bool :=
  part == "" || part == "."

/-! ## 2. Joining -/

/-- The path `p` written behind `base`, a slash between them unless `base` is empty or ends with
    one. -/
def join (base p : Path) : Path :=
  if p.isAbsolute then p
  else if base.text == "" || base.endsInSlash then ⟨base.text ++ p.text⟩
  else ⟨base.text ++ "/" ++ p.text⟩

/-- All parts joined in order, from the empty path on. -/
def ofParts (parts : List String) : Path :=
  parts.foldl (fun path part => path.join ⟨part⟩) ⟨""⟩

/-! ## 3. Components -/

/-- The component a part stands for, unless it is vacuous. -/
def component? (part : String) : Option Component :=
  if isVacuous part then none
  else if part == ".." then some .up
  else some (.name part)

/-- A leading `/` counts, and so does a leading `.`; all other vacuous parts vanish. -/
def components (p : Path) : List Component :=
  if p.isAbsolute then .root :: p.parts.filterMap component?
  else if p.parts.head? == some "." then .here :: p.parts.filterMap component?
  else p.parts.filterMap component?

/-- The last component, if it is a name. -/
def fileName (p : Path) : Option String :=
  match p.components.getLast? with
  | some (.name n) => some n
  | _ => none

/-! ## 4. Parent -/

/-- Parts without the vacuous ones at the end. -/
def withoutVacuousEnd (parts : List String) : List String :=
  (parts.reverse.dropWhile isVacuous).reverse

/-- The text up to the end of the last component but one. The root and the empty path have no
    parent; the parent of a single component is the empty path. -/
def parent (p : Path) : Option Path :=
  match p.parts with
  | [] => none
  | first :: rest =>
    match withoutVacuousEnd rest with
    | [] => if first == "" then none else some ⟨""⟩
    | part :: more =>
      match withoutVacuousEnd (part :: more).dropLast with
      | [] => some ⟨if first == "" then "/" else first⟩
      | kept => some ⟨Text.joined "/" (first :: kept)⟩

/-- A path, its parent, the parent's parent and so on, at most so many above the path. -/
def ancestorsWithin : Nat → Path → List Path
  | 0, p => [p]
  | n + 1, p =>
    p :: match p.parent with
      | none => []
      | some above => ancestorsWithin n above

/-- A path and all above it; a parent has one component less. -/
def ancestors (p : Path) : List Path :=
  ancestorsWithin p.components.length p

/-! ## 5. Stem and extension -/

/-- A file name cut at its last dot: what stands before it and what stands behind it. A name
    without a dot, or whose only dot leads it, is not cut. -/
def cutAtDot (name : String) : String × Option String :=
  let tail := name.toList.reverse.takeWhile (· != '.')
  let head := name.toList.take (name.toList.length - tail.length - 1)
  if head.isEmpty then (name, none)
  else (String.ofList head, some (String.ofList tail.reverse))

def stem (p : Path) : Option String :=
  p.fileName.map fun name => (cutAtDot name).1

def extension (p : Path) : Option String :=
  p.fileName.bind fun name => (cutAtDot name).2

end Path

end MasterSchema
