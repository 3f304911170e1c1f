import MasterSchema.Field.Resolved
import MasterSchema.Value

/-!
# Data types

A data type has a name, a namespace and resolved fields, one of which is its primary key.

* `DataType.make` refuses, in this order: the type's name; the first field that cannot be
  resolved; the first field whose accessor cannot be generated or is taken; a number of primary
  keys other than one.
* `DataType.ofDeclaration` reads the name and the fields from a declaration table first.
-/

namespace MasterSchema

structure DataType where
  name : String
  ns : Namespace
  /-- In declaration order. -/
  fields : List ResolvedField
  primaryKey : ResolvedField
  /-- Base types that need a header, in the order of their first field. -/
  includes : List String
  deriving DecidableEq, Repr

namespace DataType

/-! ## 1. The checks -/

/-- All fields resolved, or the error of the first that cannot be. -/
def resolveAll (rules : Rules) : List (String × String) → Except SchemaError (List ResolvedField)
  | [] => .ok []
  | (field, token) :: rest =>
    match ResolvedField.resolve rules field token with
    | .error e => .error e
    | .ok resolved =>
      match resolveAll rules rest with
      | .error e => .error e
      | .ok others => .ok (resolved :: others)

/-- Checks the accessors in order, against `earlier` fields and one another. -/
def checkAccessors (name : String) (ns : Namespace) (earlier : List ResolvedField) :
    List ResolvedField → Except SchemaError Unit
  | [] => .ok ()
  | field :: rest =>
    match checkName (.accessor field.name) field.accessorName with
    | .error e => .error (.inDataType name ns e)
    | .ok () =>
      match earlier.find? fun other => other.accessorName == field.accessorName with
      | some other =>
        .error (.accessorCollision name ns field.accessorName other.name field.name)
      | none => checkAccessors name ns (earlier ++ [field]) rest

/-- The one field that is a primary key. -/
def onlyPrimaryKey (name : String) (ns : Namespace) (fields : List ResolvedField) :
    Except SchemaError ResolvedField :=
  match fields.filter (·.isPrimaryKey) with
  | [] => .error (.missingPrimaryKey name ns)
  | [field] => .ok field
  | keys => .error (.multiplePrimaryKeys name ns (keys.map (·.name)))

/-- The base types that need a header, each once, first occurrence first. -/
def includesOf (rules : Rules) (fields : List ResolvedField) : List String :=
  ((fields.map (·.base)).filter rules.needsInclude).eraseDups

/-! ## 2. Making a data type -/

/-- The data type of a name, a namespace and fields with their tokens. -/
def make (rules : Rules) (name : String) (ns : Namespace) (fields : List (String × String)) :
    Except SchemaError DataType :=
  match checkName .dataType name with
  | .error e => .error e
  | .ok () =>
    match resolveAll rules fields with
    | .error e => .error (.inDataType name ns e)
    | .ok resolved =>
      match checkAccessors name ns [] resolved with
      | .error e => .error e
      | .ok () =>
        match onlyPrimaryKey name ns resolved with
        | .error e => .error e
        | .ok key => .ok ⟨name, ns, resolved, key, includesOf rules resolved⟩

/-- The fields of a field table with their tokens, which must be texts. -/
def tokensOf (declaration : String) : Table → Except SchemaError (List (String × String))
  | [] => .ok []
  | (field, .text token) :: rest =>
    match tokensOf declaration rest with
    | .error e => .error e
    | .ok others => .ok ((field, token) :: others)
  | (field, _) :: _ => .error (.wrongValue (.token declaration field))

/-- The type name that a declaration table gives. -/
def declaredName (declaration : String) (table : Table) : Except SchemaError String :=
  match table.get? Member.typeName.key with
  | none => .error (.missingMember declaration .typeName)
  | some (.text name) => .ok name
  | some _ => .error (.wrongValue (.typeName declaration))

/-- The field table of a declaration table. -/
def declaredFields (declaration : String) (table : Table) : Except SchemaError Table :=
  match table.get? Member.fields.key with
  | none => .error (.missingMember declaration .fields)
  | some (.table fields) => .ok fields
  | some _ => .error (.wrongValue (.fields declaration))

/-- The data type that a declaration table under the key `declaration` declares. -/
def ofDeclaration (rules : Rules) (declaration : String) (table : Table) (ns : Namespace) :
    Except SchemaError DataType :=
  match declaredName declaration table with
  | .error e => .error e
  | .ok name =>
    match declaredFields declaration table with
    | .error e => .error e
    | .ok fields =>
      match tokensOf declaration fields with
      | .error e => .error e
      | .ok tokens => make rules name ns tokens

/-! ## 3. Views -/

def field? (dataType : DataType) (name : String) : Option ResolvedField :=
  dataType.fields.find? fun field => field.name == name

/-- Whether some field is an identifier. -/
def hasId (dataType : DataType) : Bool :=
  dataType.fields.any (·.isId)

end DataType

end MasterSchema
