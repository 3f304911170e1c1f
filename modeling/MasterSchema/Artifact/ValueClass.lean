import MasterSchema.Artifact.Options
import MasterSchema.Text

/-!
# The value class

The class that holds one record. Accessors, members, constructor parameters and initialisers are
four lists, each with one item per field in declaration order.
-/

namespace MasterSchema.ValueClass

open Text

/-- The line that includes a header. -/
def includeLine (header : String) : String :=
  "#include \"" ++ header ++ "\""

/-! ## 1. What is included -/

/-- The ids header if some field is an identifier, then the headers configured for the base types
    that need one. -/
def headers (options : ArtifactOptions) (d : DataType) : List String :=
  (if d.hasId then [options.idsHeader] else []) ++ d.includes.filterMap options.typeHeader?

def preamble (options : ArtifactOptions) (d : DataType) : List String :=
  "#pragma once" :: (headers options d).map includeLine

/-! ## 2. One item per field -/

def accessorLine (options : ArtifactOptions) (field : ResolvedField) : String :=
  options.indent ++ field.callType ++ " " ++ field.accessorName ++ "() const \x7b return "
    ++ field.memberName ++ "; \x7d"

def memberLine (options : ArtifactOptions) (field : ResolvedField) : String :=
  options.indent ++ field.storageType ++ " " ++ field.memberName ++ ";"

def parameter (field : ResolvedField) : String :=
  field.callType ++ " " ++ field.name

def initialiser (options : ArtifactOptions) (field : ResolvedField) : String :=
  options.indent ++ options.indent ++ field.memberName ++ "(" ++ field.name ++ ")"

/-! ## 3. The class -/

def constructorLine (options : ArtifactOptions) (d : DataType) : String :=
  options.indent ++ options.valueClass d ++ "(" ++ joined ", " (d.fields.map parameter) ++ ") :"

def body (options : ArtifactOptions) (d : DataType) : List String :=
  ["class " ++ options.valueClass d ++ " \x7b",
   "public: // public getter"]
    ++ d.fields.map (accessorLine options)
    ++ ["private: // field"]
    ++ d.fields.map (memberLine options)
    ++ ["public: // ctor",
        constructorLine options d]
    ++ withSeparators "," " \x7b\x7d" (d.fields.map (initialiser options))
    ++ ["\x7d;"]

end MasterSchema.ValueClass
