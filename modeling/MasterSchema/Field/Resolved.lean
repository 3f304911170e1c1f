import MasterSchema.Field.Declaration

/-!
# Resolved fields

A resolved field knows the type it is stored as and the type it is passed as. Its accessor is its
name in camel case: the words between underscores, the first in lower case, each later one with a
capital at the front. An empty word adds nothing but counts as a word, so `_x` becomes `X`.
-/

namespace MasterSchema

structure ResolvedField where
  name : String
  base : String
  /-- Type of the private member. -/
  storageType : String
  /-- Type of the accessor's result and of the constructor's parameter. -/
  callType : String
  isId : Bool
  isPrimaryKey : Bool
  deriving DecidableEq, Repr

namespace ResolvedField

/-- What a field is stored as: identifiers of a domain have a type of their own. -/
def storageOf (rules : Rules) (declaration : FieldDeclaration) : String :=
  if declaration.isId then declaration.base ++ rules.idSuffix
  else (rules.substitution? declaration.base).getD declaration.base

def ofDeclaration (rules : Rules) (declaration : FieldDeclaration) : ResolvedField :=
  let storage := storageOf rules declaration
  { name := declaration.name
    base := declaration.base
    storageType := storage
    callType :=
      if rules.heavyTypes.contains declaration.base then "const " ++ storage ++ "&" else storage
    isId := declaration.isId
    isPrimaryKey := declaration.isPrimaryKey }

/-- Reads a field's name and type token and settles its types. -/
def resolve (rules : Rules) (field token : String) : Except SchemaError ResolvedField :=
  match FieldDeclaration.read rules field token with
  | .error e => .error e
  | .ok declaration => .ok (ofDeclaration rules declaration)

/-- A word with a capital at the front and the rest in lower case. -/
def capitalized : List Char → List Char
  | [] => []
  | c :: rest => c.toUpper :: rest.map Char.toLower

/-- Words run together: the first in lower case, the others capitalized. -/
def camelCase : List (List Char) → List Char
  | [] => []
  | word :: rest => word.map Char.toLower ++ (rest.map capitalized).flatten

/-- The accessor of a field. -/
def accessorName (field : ResolvedField) : String :=
  String.ofList (camelCase (field.name.toList.splitOn '_'))

/-- The private member of a field. -/
def memberName (field : ResolvedField) : String :=
  "m_" ++ field.name

/-- Whether the field is passed otherwise than it is stored. -/
def byReference (field : ResolvedField) : Bool :=
  field.callType != field.storageType

end ResolvedField

end MasterSchema
