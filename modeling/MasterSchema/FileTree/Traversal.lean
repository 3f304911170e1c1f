import MasterSchema.FileTree.Basic

/-!
# Going through a file tree

* `listing` is what stands directly in a directory, in the order in which the tree lists it;
* `traversal` goes through all that is below a directory, depth first: the entries of every
  directory in the order of their names, and behind a directory what is below it.
-/

namespace MasterSchema.FileTree

/-! ## 1. One directory -/

/-- The name of a location that stands directly in a directory. -/
def nameIn? (dir place : Location) : Option String :=
  if place.dropLast = dir then place.getLast? else none

/-- The entries of a directory by name. -/
def listing (t : FileTree) (dir : Location) : List (String × Entry) :=
  t.entries.filterMap fun x => (nameIn? dir x.1).map fun name => (name, x.2)

/-- The entries of a directory in the order of their names. -/
def inOrder (t : FileTree) (dir : Location) : List (String × Entry) :=
  (t.listing dir).mergeSort fun a b => decide (a.1 ≤ b.1)

/-! ## 2. All directories -/

/-- How many names the longest location of the tree has. -/
def depth (t : FileTree) : Nat :=
  (t.entries.map (·.1.length)).max?.getD 0

/-- An entry of a directory and, if it is a directory itself, what `below` has below it. -/
def withBelow (below : Location → List (Location × Entry)) (dir : Location) :
    String × Entry → List (Location × Entry)
  | (name, .file content) => [([name], .file content)]
  | (name, .directory) =>
    ([name], .directory) :: (below (dir ++ [name])).map fun x => (name :: x.1, x.2)

/-- What is at most so many names below a directory. -/
def traverseWithin (t : FileTree) : Nat → Location → List (Location × Entry)
  | 0, _ => []
  | n + 1, dir => (t.inOrder dir).flatMap (withBelow (t.traverseWithin n) dir)

/-- What is below a directory, relative to it; no location is longer than the tree is deep. -/
def traversal (t : FileTree) (dir : Location) : List (Location × Entry) :=
  t.traverseWithin t.depth dir

end MasterSchema.FileTree
