import MasterSchema.Artifact.ValueClass

/-!
# The repository

The class that holds all records of a data type, by primary key. Its declaration names the key's
type; its definition reads every record of the record source: the primary key first, then every
field in declaration order as an argument of the value class's constructor.
-/

namespace MasterSchema

open Text

/-! ## 1. The declaration -/

namespace RepositoryDeclaration

open ValueClass (includeLine)

def preamble (options : ArtifactOptions) (d : DataType) : List String :=
  ["#pragma once",
   includeLine options.repositoryHeader,
   includeLine options.instanceHeader,
   includeLine (options.valueClass d ++ ".hpp")]
    ++ if d.hasId then [includeLine options.idsHeader] else []

def body (options : ArtifactOptions) (d : DataType) : List String :=
  let i := options.indent
  let repository := options.repository d
  ["class " ++ repository ++ " :",
   i ++ "public " ++ options.repositoryBase ++ "<" ++ d.primaryKey.storageType ++ ", "
     ++ options.valueClass d ++ ">,",
   i ++ "public " ++ options.instanceBase ++ "<" ++ repository ++ "> \x7b",
   "protected: // protected function",
   i ++ "void initialize();",
   "public: // ctor",
   i ++ repository ++ "() \x7b initialize(); \x7d",
   "\x7d;"]

end RepositoryDeclaration

/-! ## 2. The definition -/

namespace RepositoryDefinition

open ValueClass (includeLine)

def preamble (options : ArtifactOptions) (d : DataType) : List String :=
  [includeLine (options.repository d ++ ".hpp"),
   includeLine options.recordSourceHeader]

/-- The expression that reads a field of a record as the field's storage type. An identifier is
    read as a number and made one of its domain. -/
def readField (options : ArtifactOptions) (field : ResolvedField) : String :=
  if field.isId then
    field.storageType ++ "(toml_value[U\"" ++ field.name ++ "\"].get<" ++ options.idValueType
      ++ ">())"
  else "toml_value[U\"" ++ field.name ++ "\"].get<" ++ field.storageType ++ ">()"

def argument (options : ArtifactOptions) (field : ResolvedField) : String :=
  options.indent ++ options.indent ++ options.indent ++ options.indent ++ readField options field

def body (options : ArtifactOptions) (d : DataType) : List String :=
  let i := options.indent
  ["void " ++ options.repository d ++ "::initialize() \x7b",
   i ++ "const " ++ options.recordSourceType ++ " toml(U\"" ++ d.name ++ "\");",
   i ++ "const " ++ options.recordKeyType ++ " key(U\"" ++ options.recordRootKey ++ "\");",
   i ++ "s3d::TOMLTableView table = toml[key].tableView();",
   i ++ "for (const s3d::TOMLTableMember& table_member : table) \x7b",
   i ++ i ++ "const auto& toml_value = table_member.value;",
   i ++ i ++ "m_data.insert(std::make_pair(",
   i ++ i ++ i ++ readField options d.primaryKey ++ ",",
   i ++ i ++ i ++ "std::make_unique<" ++ options.valueClass d ++ ">("]
    ++ withSeparators "," ")));" (d.fields.map (argument options))
    ++ [i ++ "\x7d",
        "\x7d"]

end RepositoryDefinition

end MasterSchema
