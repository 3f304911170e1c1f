import MasterSchema.Field.Rules
import MasterSchema.SchemaError
import MasterSchema.Text

/-!
# Field declarations

A field is declared by its name and a type token `base[:attribute]*`. The parts of a token are
read with the blanks around them cut off, from left to right; an attribute is the identifier tag
or the primary-key tag. The base type is looked up last, and only if no identifier tag is there.
-/

namespace MasterSchema

/-- A field as declared, before its types are known. -/
structure FieldDeclaration where
  name : String
  base : String
  isId : Bool
  isPrimaryKey : Bool
  deriving DecidableEq, Repr

namespace FieldDeclaration

/-- The parts of a token between the colons, blanks cut off. -/
def tokenParts (token : String) : List String :=
  (token.toList.splitOn ':').map fun part => String.ofList (Text.trimmed part)

/-- The attributes read so far. -/
structure Tags where
  isId : Bool := false
  isPrimaryKey : Bool := false
  deriving DecidableEq, Repr

/-- One more attribute. The identifier tag may be repeated, the primary-key tag may not. -/
def readTag (rules : Rules) (field token : String) (tags : Tags) (tag : String) :
    Except SchemaError Tags :=
  if tag == "" then .error (.malformedToken field token .emptyAttribute)
  else if tag == rules.idTag then .ok { tags with isId := true }
  else if tag == rules.primaryKeyTag then
    if tags.isPrimaryKey then .error (.malformedToken field token .repeatedKeyTag)
    else .ok { tags with isPrimaryKey := true }
  else .error (.unknownAttribute field tag)

/-- All attributes, in order. -/
def readTags (rules : Rules) (field token : String) (tags : Tags) :
    List String → Except SchemaError Tags
  | [] => .ok tags
  | tag :: rest =>
    match readTag rules field token tags tag with
    | .error e => .error e
    | .ok tags => readTags rules field token tags rest

/-- The declaration that the parts of a token make, the field's name being accepted. -/
def ofParts (rules : Rules) (field token : String) :
    List String → Except SchemaError FieldDeclaration
  | [] => .error (.malformedToken field token .emptyBase)
  | base :: tagParts =>
    if base == "" then .error (.malformedToken field token .emptyBase)
    else
      match readTags rules field token {} tagParts with
      | .error e => .error e
      | .ok tags =>
        if tags.isId || rules.allowedTypes.contains base then
          .ok ⟨field, base, tags.isId, tags.isPrimaryKey⟩
        else .error (.unknownBase field base)

/-- Reads a field's name and type token. -/
def read (rules : Rules) (field token : String) : Except SchemaError FieldDeclaration :=
  match checkName .field field with
  | .error e => .error e
  | .ok () => ofParts rules field token (tokenParts token)

end FieldDeclaration

end MasterSchema
