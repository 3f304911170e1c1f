import MasterSchema.Artifact.Repository
import MasterSchema.Registry.Basic

/-!
# Artifacts

Three files are generated for each data type. Each has five parts, blank lines between them:
where it comes from with its preamble, the opened namespaces, its body, the closed namespaces.
Only preamble and body differ between the kinds.
-/

namespace MasterSchema

inductive ArtifactKind where
  | valueClass
  | declaration
  | definition
  deriving DecidableEq, Repr

/-- The kinds in the order they are generated. -/
def ArtifactKind.all : List ArtifactKind :=
  [.valueClass, .declaration, .definition]

/-- A generated file, its path relative to the output root. -/
structure Artifact where
  kind : ArtifactKind
  path : Path
  text : String
  deriving DecidableEq, Repr

namespace Artifact

/-! ## 1. Paths -/

def directoryName : ArtifactKind → String
  | .valueClass => "class"
  | .declaration | .definition => "repository"

def fileName (options : ArtifactOptions) (d : DataType) : ArtifactKind → String
  | .valueClass => options.valueClass d ++ ".hpp"
  | .declaration => options.repository d ++ ".hpp"
  | .definition => options.repository d ++ ".cpp"

/-- The kind's directory, the directory of the data type's namespace, the file's name. -/
def pathOf (options : ArtifactOptions) (d : DataType) (kind : ArtifactKind) : Path :=
  ((Path.mk (directoryName kind)).join d.ns.directory).join ⟨fileName options d kind⟩

/-! ## 2. Texts -/

/-- Where the text comes from: the schema file and the data type with its namespace. -/
def provenance (options : ArtifactOptions) (d : DataType) : String :=
  let typeName := if d.ns.isRoot then d.name else d.ns.toString ++ "/" ++ d.name
  "// This file is generated from " ++ options.sourceName ++ " (" ++ typeName ++ ")"

/-- The namespaces the code stands in, outermost first. -/
def namespaceNames (options : ArtifactOptions) (d : DataType) : List String :=
  options.namespaces ++ d.ns.segments

def openLine (name : String) : String :=
  "namespace " ++ name ++ " \x7b"

def preamble (options : ArtifactOptions) (d : DataType) : ArtifactKind → List String
  | .valueClass => ValueClass.preamble options d
  | .declaration => RepositoryDeclaration.preamble options d
  | .definition => RepositoryDefinition.preamble options d

def body (options : ArtifactOptions) (d : DataType) : ArtifactKind → List String
  | .valueClass => ValueClass.body options d
  | .declaration => RepositoryDeclaration.body options d
  | .definition => RepositoryDefinition.body options d

/-- All lines of an artifact. -/
def lines (options : ArtifactOptions) (d : DataType) (kind : ArtifactKind) : List String :=
  provenance options d :: preamble options d kind
    ++ [""] ++ (namespaceNames options d).map openLine
    ++ [""] ++ body options d kind
    ++ [""] ++ (namespaceNames options d).map fun _ => "\x7d"

def textOf (options : ArtifactOptions) (d : DataType) (kind : ArtifactKind) : String :=
  Text.ofLines (lines options d kind)

/-! ## 3. Generating -/

/-- One artifact of a data type. -/
def generate (options : ArtifactOptions) (d : DataType) (kind : ArtifactKind) : Artifact :=
  ⟨kind, pathOf options d kind, textOf options d kind⟩

/-- The three artifacts of a data type. -/
def generateAll (options : ArtifactOptions) (d : DataType) : List Artifact :=
  ArtifactKind.all.map (generate options d)

/-- The artifacts of all data types, in the order of the registry. -/
def generateRegistry (options : ArtifactOptions) (r : Registry) : List Artifact :=
  r.types.flatMap (generateAll options)

end Artifact

end MasterSchema
