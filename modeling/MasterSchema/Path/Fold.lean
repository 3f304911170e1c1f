import MasterSchema.Path.Basic

/-!
# Folded paths

A location is an absolute place: the names on the way from the root of the file system to it. A
path is folded by taking it from the working directory and letting every `..` take the name before
it away, without looking at any file.
-/

namespace MasterSchema

/-- The names from the root of the file system to a place. -/
abbrev Location := List String

namespace Path

/-- One component taken from a location. -/
def foldStep (place : Location) : Component → Location
  | .root => []
  | .here => place
  | .up => place.dropLast
  | .name n => place ++ [n]

/-- The location that a path spells, `working` being the working directory. The empty path spells
    none. -/
def fold? (working : Location) (p : Path) : Option Location :=
  if p.text == "" then none else some (p.components.foldl foldStep working)

/-- Whether `inner` is `outer` or lies below it, both folded. Everything lies below the empty path,
    which itself lies below nothing else. -/
def foldsBelow (working : Location) (outer inner : Path) : Bool :=
  match outer.fold? working, inner.fold? working with
  | none, _ => true
  | some _, none => false
  | some o, some i => o.isPrefixOf i

end Path

end MasterSchema
