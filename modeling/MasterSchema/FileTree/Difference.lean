import MasterSchema.FileTree.Basic

/-!
# Differences of file trees

What has to be taken away from one tree, and what has to be written then, to make it another.
-/

namespace MasterSchema.FileTree

/-- Puts an entry where there is room for it, and leaves the tree as it is elsewhere. -/
def insertAt (t : FileTree) (place : Location) (e : Entry) : FileTree :=
  match place.getLast? with
  | none => t
  | some name => if h : t.HasRoom place.dropLast name then t.add place.dropLast name e h else t

/-- The tree that entries make, each put in where there is room for it. -/
def ofEntries (entries : List (Location × Entry)) : FileTree :=
  entries.foldl (fun t x => t.insertAt x.1 x.2) empty

/-- Whether two entries are of the same kind. -/
def sameKind : Entry → Entry → Bool
  | .directory, .directory => true
  | .file _, .file _ => true
  | _, _ => false

/-- The entries of a tree that another one has not, or has of another kind; the deepest first. -/
def gone (before after : FileTree) : List (Location × Entry) :=
  (before.entries.filter fun x => !(after.get? x.1).any (sameKind x.2)).mergeSort
    fun a b => decide (b.1.length ≤ a.1.length)

/-- The entries of a tree that another one had not, or had otherwise; the least deep first. -/
def fresh (before after : FileTree) : List (Location × Entry) :=
  (after.entries.filter fun x => before.get? x.1 != some x.2).mergeSort
    fun a b => decide (a.1.length ≤ b.1.length)

end MasterSchema.FileTree
