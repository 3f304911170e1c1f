/-!
# The vocabulary of type tokens

`Rules` says which base types there are, which of them are heavy or stored as another type, and
how identifiers and primary keys are tagged.
-/

namespace MasterSchema

structure Rules where
  /-- Base types accepted without an identifier tag. -/
  allowedTypes : List String :=
    ["int", "int8", "int16", "int32", "int64", "uint8", "uint16", "uint32", "uint64", "float",
     "double", "bool", "string"]
  /-- Base types passed by const reference. -/
  heavyTypes : List String := ["string"]
  /-- Library types and what they are stored as. -/
  substitutions : List (String × String) := [("string", "s3d::String")]
  idTag : String := "ID"
  primaryKeyTag : String := "PKey"
  /-- What the storage type of an identifier has behind its base type. -/
  idSuffix : String := "ID"
  deriving DecidableEq, Repr

namespace Rules

/-- What a base type is stored as, if the vocabulary says so. -/
def substitution? (rules : Rules) (base : String) : Option String :=
  (rules.substitutions.find? fun entry => entry.1 == base).map (·.2)

/-- Values of a library type need a header of their own. -/
def needsInclude (rules : Rules) (base : String) : Bool :=
  (rules.substitution? base).isSome

end Rules

end MasterSchema
