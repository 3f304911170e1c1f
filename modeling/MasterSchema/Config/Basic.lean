import MasterSchema.Artifact.Options
import MasterSchema.LoadError
import MasterSchema.Registry.Load

/-!
# The configuration of a project

A configuration says where a project's files are, how its schema is read and how its artifacts are
written. All paths are taken from the project's root, and the root from the directory of the
configuration.

`checkOutput` refuses an output directory with an input in it: a run clears the output directory
before it writes.
-/

namespace MasterSchema

/-- Where the files of a project are. -/
structure Layout where
  root : Path := ⟨"."⟩
  schema : Path := ⟨"schema/master/masterdata.toml"⟩
  idRegistry : Path := ⟨"schema/master/id.toml"⟩
  records : Path := ⟨"masterdata"⟩
  output : Path := ⟨"md_header"⟩
  deriving DecidableEq, Repr

structure Config where
  /-- The directory that the project's root is taken from. -/
  base : Path := ⟨"."⟩
  layout : Layout := {}
  /-- The key at the top of the schema file and of every record file. -/
  rootKey : String := "masterdata"
  schemaOptions : SchemaOptions := {}
  /-- How artifacts are written, but for the names that follow from the rest. -/
  writing : ArtifactOptions := {}
  deriving DecidableEq, Repr

namespace Config

/-- All defaults, for a project below a directory. -/
def rootedAt (base : Path) : Config := { base := base }

/-! ## 1. Paths -/

def root (config : Config) : Path := config.base.join config.layout.root

def schemaPath (config : Config) : Path := config.root.join config.layout.schema

def idRegistryPath (config : Config) : Path := config.root.join config.layout.idRegistry

def recordsDir (config : Config) : Path := config.root.join config.layout.records

def outputDir (config : Config) : Path := config.root.join config.layout.output

/-- Where an input is. -/
def inputPath (config : Config) : Input → Path
  | .schema => config.schemaPath
  | .idRegistry => config.idRegistryPath
  | .records => config.recordsDir

/-! ## 2. Options -/

/-- The name that artifacts give their schema: its file name. -/
def sourceName (config : Config) : String :=
  config.layout.schema.fileName.getD config.layout.schema.text

def artifactOptions (config : Config) : ArtifactOptions :=
  { config.writing with sourceName := config.sourceName, recordRootKey := config.rootKey }

/-! ## 3. The output directory -/

/-- The inputs in the order they are checked in. -/
def inputs : List Input := [.schema, .idRegistry, .records]

/-- Whether an input would be cleared with the output directory. -/
def covers (config : Config) (working : Location) (input : Input) : Bool :=
  Path.foldsBelow working config.outputDir (config.inputPath input)

/-- Accepts the configuration unless its output directory holds an input. -/
def checkOutput (config : Config) (working : Location) : Except LoadError Unit :=
  match inputs.find? (config.covers working) with
  | some input =>
    .error (.badConfig config.outputDir (.outputContains input (config.inputPath input)))
  | none => .ok ()

end Config

end MasterSchema
