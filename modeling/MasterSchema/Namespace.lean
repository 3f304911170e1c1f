import MasterSchema.Path.Basic
import MasterSchema.Text

/-!
# Namespaces

A namespace groups data types; it is a list of segments, and the root namespace has none.

* `ofText` reads a text with slashes: empty and `.` segments vanish;
* `toString` writes the segments with slashes, and the root as `(root)`;
* `directory` is the relative directory a namespace's files lie in, `ofDirectory` reads it back.
-/

namespace MasterSchema

structure Namespace where
  segments : List String
  deriving DecidableEq, Repr

namespace Namespace

/-- The namespace of the data types declared at the top of the schema. -/
def root : Namespace := ⟨[]⟩

def isRoot (ns : Namespace) : Bool :=
  ns.segments.isEmpty

/-- The namespace one level deeper. -/
def child (ns : Namespace) (segment : String) : Namespace :=
  ⟨ns.segments ++ [segment]⟩

/-- The segments between the slashes of a text, without empty ones and `.`. -/
def ofText (text : String) : Namespace :=
  ⟨((text.toList.splitOn '/').map String.ofList).filter fun part => !Path.isVacuous part⟩

protected def toString (ns : Namespace) : String :=
  if ns.isRoot then "(root)" else Text.joined "/" ns.segments

instance : ToString Namespace := ⟨Namespace.toString⟩

/-- The relative directory of a namespace, empty for the root. -/
def directory (ns : Namespace) : Path :=
  Path.ofParts ns.segments

/-- The namespace of the files in a directory, given relative to where the root's files lie. -/
def ofDirectory (dir : Path) : Namespace :=
  ofText (Text.joined "/" (dir.components.map Component.text))

/-- Namespaces are ordered segment by segment. -/
def le (a b : Namespace) : Bool :=
  Text.namesLe a.segments b.segments

/-- The namespaces of a list, each once, in increasing order. -/
def sortedSet (nss : List Namespace) : List Namespace :=
  nss.eraseDups.mergeSort le

end Namespace

end MasterSchema
