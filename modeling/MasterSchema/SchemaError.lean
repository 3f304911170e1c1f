import MasterSchema.Identifier
import MasterSchema.Namespace
import MasterSchema.Text

/-!
# What can be wrong with a schema

`SchemaError` holds the causes for which a schema is refused, `LookupError` those for which a data
type is not found. The wording of both is in one function each (`message`).
-/

namespace MasterSchema

/-! ## 1. Places and faults -/

/-- Where a name stands that must be usable in generated code. -/
inductive NamePlace where
  | field
  | dataType
  | accessor (field : String)
  | childOf (parent : Namespace)
  deriving DecidableEq, Repr

def NamePlace.message : NamePlace → String
  | .field => "field"
  | .dataType => "data type"
  | .accessor name => "accessor of field '" ++ name ++ "'"
  | .childOf parent => "namespace under " ++ parent.toString

/-- Why a type token cannot be read. -/
inductive TokenFault where
  | emptyBase
  | emptyAttribute
  | repeatedKeyTag
  deriving DecidableEq, Repr

def TokenFault.message : TokenFault → String
  | .emptyBase => "empty base type"
  | .emptyAttribute => "empty attribute"
  | .repeatedKeyTag => "primary-key tag repeated"

/-- The two members a declaration must have. -/
inductive Member where
  | typeName
  | fields
  deriving DecidableEq, Repr

/-- The key of a member in a declaration table. -/
def Member.key : Member → String
  | .typeName => "data_type_name"
  | .fields => "field"

/-- A place of the schema tree where a value has the wrong kind. -/
inductive ValuePlace where
  | typeName (declaration : String)
  | fields (declaration : String)
  | token (declaration field : String)
  | entry (parent : Namespace) (key : String)
  deriving DecidableEq, Repr

/-- The place, and what was expected there. -/
def ValuePlace.message : ValuePlace → String
  | .typeName declaration =>
      declaration ++ "." ++ Member.typeName.key ++ ": expected a string"
  | .fields declaration =>
      declaration ++ "." ++ Member.fields.key ++ ": expected a table"
  | .token declaration field =>
      declaration ++ "." ++ Member.fields.key ++ "." ++ field ++ ": expected a type token string"
  | .entry parent key =>
      parent.toString ++ ": " ++ key ++ ": expected a namespace or declaration table"

/-! ## 2. Schema errors -/

/-- Why a schema is refused. Every one of them is fatal. -/
inductive SchemaError where
  | malformedToken (field token : String) (fault : TokenFault)
  | unknownBase (field base : String)
  | unknownAttribute (field tag : String)
  | missingPrimaryKey (dataType : String) (ns : Namespace)
  | multiplePrimaryKeys (dataType : String) (ns : Namespace) (fields : List String)
  | badName (place : NamePlace) (name : String) (fault : NameFault)
  | accessorCollision (dataType : String) (ns : Namespace) (accessor first second : String)
  | duplicateDataType (dataType : String) (ns : Namespace)
  | missingMember (declaration : String) (member : Member)
  | wrongValue (place : ValuePlace)
  | inDataType (dataType : String) (ns : Namespace) (cause : SchemaError)
  deriving DecidableEq, Repr

namespace SchemaError

def message : SchemaError → String
  | .malformedToken field token fault =>
      "malformed type token '" ++ token ++ "' for field '" ++ field ++ "': " ++ fault.message
  | .unknownBase field base =>
      "field '" ++ field ++ "' has unknown base type '" ++ base ++ "'"
  | .unknownAttribute field tag =>
      "field '" ++ field ++ "' has unknown attribute '" ++ tag ++ "'"
  | .missingPrimaryKey dataType ns =>
      "data type '" ++ dataType ++ "' in " ++ ns.toString ++ " has no primary key"
  | .multiplePrimaryKeys dataType ns fields =>
      "data type '" ++ dataType ++ "' in " ++ ns.toString ++ " has multiple primary keys: "
        ++ Text.quotedList fields
  | .badName place name .notIdentifier =>
      place.message ++ ": '" ++ name ++ "' is not a valid identifier"
  | .badName place name .reserved =>
      place.message ++ ": '" ++ name ++ "' is a reserved word"
  | .accessorCollision dataType ns accessor first second =>
      "data type '" ++ dataType ++ "' in " ++ ns.toString ++ ": fields "
        ++ Text.quotedList [first, second] ++ " share accessor '" ++ accessor ++ "'"
  | .duplicateDataType dataType ns =>
      "data type '" ++ dataType ++ "' declared twice in " ++ ns.toString
  | .missingMember declaration member =>
      "declaration '" ++ declaration ++ "' is missing '" ++ member.key ++ "'"
  | .wrongValue place => place.message
  | .inDataType dataType ns cause =>
      "in data type '" ++ dataType ++ "' (" ++ ns.toString ++ "): " ++ cause.message

/-- The messages of an error and of the causes below it. -/
def chain : SchemaError → List String
  | .inDataType dataType ns cause => (inDataType dataType ns cause).message :: cause.chain
  | e => [e.message]

end SchemaError

/-- A name is accepted unless it has a fault. -/
def checkName (place : NamePlace) (name : String) : Except SchemaError Unit :=
  match nameFault? name with
  | some fault => .error (.badName place name fault)
  | none => .ok ()

/-! ## 3. Lookup errors -/

/-- Why a data type is not found. -/
inductive LookupError where
  | unknownNamespace (ns : Namespace)
  | unknownDataType (ns : Namespace) (dataType : String)
  deriving DecidableEq, Repr

def LookupError.message : LookupError → String
  | .unknownNamespace ns => "unknown namespace: " ++ ns.toString
  | .unknownDataType ns dataType =>
      "unknown data type '" ++ dataType ++ "' in " ++ ns.toString

end MasterSchema
