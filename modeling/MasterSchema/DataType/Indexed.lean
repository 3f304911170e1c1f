import MasterSchema.DataType
import Std.Data.HashMap

/-!
# Data types with a place for their key

An indexed data type keeps the place of its primary key among its fields, not the key itself, and
while it is made a map holds the accessors that are taken, so that every field is looked at once.
Which names and fields are accepted does not depend on that, and neither does the error of those
that are refused: `make` checks what `DataType.make` checks, in the same order.
-/

namespace MasterSchema

structure IndexedDataType where
  name : String
  ns : Namespace
  /-- In declaration order. -/
  fields : List ResolvedField
  /-- The place of the primary key among the fields. -/
  keyIndex : Nat
  /-- Base types that need a header, in the order of their first field. -/
  includes : List String
  deriving DecidableEq, Repr

/-- The names of fields, by their accessors. -/
abbrev Accessors := Std.HashMap String String

namespace IndexedDataType

/-- Takes the accessors of fields in order, `taken` being those of the fields before them. -/
def takeAccessors (name : String) (ns : Namespace) (taken : Accessors) :
    List ResolvedField → Except SchemaError Unit
  | [] => .ok ()
  | field :: rest =>
    match checkName (.accessor field.name) field.accessorName with
    | .error e => .error (.inDataType name ns e)
    | .ok () =>
      match taken[field.accessorName]? with
      | some first => .error (.accessorCollision name ns field.accessorName first field.name)
      | none => takeAccessors name ns (taken.insert field.accessorName field.name) rest

/-- The places of the primary keys, in order. -/
def keyIndices (fields : List ResolvedField) : List Nat :=
  (fields.zipIdx.filter fun entry => entry.1.isPrimaryKey).map (·.2)

/-- The place of the one field that is a primary key. -/
def onlyKeyIndex (name : String) (ns : Namespace) (fields : List ResolvedField) :
    Except SchemaError Nat :=
  match keyIndices fields with
  | [place] => .ok place
  | [] => .error (.missingPrimaryKey name ns)
  | places =>
    .error (.multiplePrimaryKeys name ns
      (places.filterMap fun place => fields[place]?.map (·.name)))

/-- The data type of a name, a namespace and fields with their tokens. -/
def make (rules : Rules) (name : String) (ns : Namespace) (fields : List (String × String)) :
    Except SchemaError IndexedDataType :=
  match checkName .dataType name with
  | .error e => .error e
  | .ok () =>
    match DataType.resolveAll rules fields with
    | .error e => .error (.inDataType name ns e)
    | .ok resolved =>
      match takeAccessors name ns ∅ resolved with
      | .error e => .error e
      | .ok () =>
        match onlyKeyIndex name ns resolved with
        | .error e => .error e
        | .ok place => .ok ⟨name, ns, resolved, place, DataType.includesOf rules resolved⟩

/-- The field at the place of the primary key. -/
def primaryKey? (d : IndexedDataType) : Option ResolvedField :=
  d.fields[d.keyIndex]?

/-- The data type with its key, if there is a field at the key's place. -/
def toDataType? (d : IndexedDataType) : Option DataType :=
  d.primaryKey?.map fun key => ⟨d.name, d.ns, d.fields, key, d.includes⟩

end IndexedDataType

end MasterSchema
