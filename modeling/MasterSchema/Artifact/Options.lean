import MasterSchema.DataType

/-!
# Names and layout of the generated code

The class names of a data type follow from the options: the value class is the class prefix and
the type's name, the repository has `Repository` behind that.
-/

namespace MasterSchema

structure ArtifactOptions where
  /-- Schema file named in the first line of every artifact. -/
  sourceName : String := "masterdata.toml"
  indent : String := "    "
  /-- Outer namespaces; those of the data type are nested inside. -/
  namespaces : List String := ["kanji", "md"]
  classPrefix : String := "Master"
  idsHeader : String := "IDs.hpp"
  /-- The integer type an identifier is read as. -/
  idValueType : String := "int"
  repositoryHeader : String := "MasterDataRepository.hpp"
  repositoryBase : String := "dx::md::MasterDataRepository"
  instanceHeader : String := "RepositoryRegistry.hpp"
  /-- The class template through which a repository is reached. -/
  instanceBase : String := "dx::md::RegistryEntry"
  recordSourceHeader : String := "TomlAsset.hpp"
  recordSourceType : String := "dx::toml::TomlAsset"
  recordKeyType : String := "dx::toml::TomlKey"
  /-- The key of a record file under which the records are. -/
  recordRootKey : String := "masterdata"
  /-- The header of a base type that needs one. -/
  typeHeaders : List (String × String) := []
  deriving DecidableEq, Repr

namespace ArtifactOptions

def valueClass (options : ArtifactOptions) (d : DataType) : String :=
  options.classPrefix ++ d.name

def repository (options : ArtifactOptions) (d : DataType) : String :=
  options.classPrefix ++ d.name ++ "Repository"

/-- The header configured for a base type. -/
def typeHeader? (options : ArtifactOptions) (base : String) : Option String :=
  (options.typeHeaders.find? fun entry => entry.1 == base).map (·.2)

end ArtifactOptions

end MasterSchema
