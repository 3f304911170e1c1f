import MasterSchema.Log
import MasterSchema.Registry.Basic

/-!
# Reading a schema tree

The tree is walked entry by entry, tables before what follows them. A key that starts with the
declaration marker declares a data type in the namespace of the keys above it; every other key is a
namespace segment. The first offending entry ends the walk.
-/

namespace MasterSchema

/-- How a schema tree is read. -/
structure SchemaOptions where
  /-- What the key of a declaration starts with. -/
  marker : String := "md_"
  rules : Rules := {}
  deriving DecidableEq, Repr

namespace SchemaOptions

def isDeclaration (options : SchemaOptions) (key : String) : Bool :=
  options.marker.toList.isPrefixOf key.toList

end SchemaOptions

namespace Registry

/-- Registers the data type that a declaration table declares. -/
def declare (options : SchemaOptions) (ns : Namespace) (key : String) (table : Table)
    (r : Registry) : Logged SchemaError Registry :=
  match DataType.ofDeclaration options.rules key table ns with
  | .error e => .fail e
  | .ok d =>
    match r.register d with
    | .error e => .fail e
    | .ok r => .after [.registered d.name d.ns d.fields.length] (.ok r)

mutual

/-- Registers what one entry of a table declares, the table's namespace being `ns`. -/
def addEntry (options : SchemaOptions) (ns : Namespace) (key : String) (r : Registry) :
    Value → Logged SchemaError Registry
  | .table child =>
    if options.isDeclaration key then declare options ns key child r
    else
      match checkName (.childOf ns) key with
      | .error e => .fail e
      | .ok () => addEntries options (ns.child key) child r
  | _ => .fail (.wrongValue (.entry ns key))

/-- Registers what the entries of a table declare, in their order. -/
def addEntries (options : SchemaOptions) (ns : Namespace) :
    List (String × Value) → Registry → Logged SchemaError Registry
  | [], r => .ok r
  | (key, v) :: rest, r =>
    (addEntry options ns key r v).andThen (addEntries options ns rest)

end

/-- The registry of a schema tree; a refusal is logged last. -/
def load (options : SchemaOptions) (tree : Table) : Logged SchemaError Registry :=
  let walk := addEntries options .root tree .empty
  match walk.result with
  | .ok _ => walk
  | .error e => ⟨.error e, walk.log ++ [.schemaRejected e]⟩

end Registry

end MasterSchema
