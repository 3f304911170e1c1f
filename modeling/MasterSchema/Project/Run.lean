import MasterSchema.Artifact.Basic
import MasterSchema.Config.Basic
import MasterSchema.FileTree.Change
import MasterSchema.Project.Discovery

/-!
# Runs over a project

* `generate` writes all artifacts of a project's schema. Everything is read and checked before the
  first file is touched; then the output directory is cleared and every artifact is written.
* `validate` checks all records of a project against its schema. It only reads.
-/

namespace MasterSchema

/-! ## 1. Errors and outcomes -/

/-- Why a run fails. -/
inductive RunError where
  | load (cause : LoadError)
  | schema (file : Path) (cause : SchemaError)
  | lookup (cause : LookupError)
  | write (path : Path) (fault : FileFault)
  deriving DecidableEq, Repr

namespace RunError

def message : RunError → String
  | .load cause => cause.message
  | .schema file cause => "invalid schema " ++ file.text ++ ": " ++ cause.message
  | .lookup cause => cause.message
  | .write path fault => "failed to write " ++ path.text ++ ": " ++ fault.message

/-- The messages of an error and of the causes below it. -/
def chain : RunError → List String
  | .load cause => cause.chain
  | .schema file cause => (schema file cause).message :: cause.chain
  | .lookup cause => [cause.message]
  | .write path fault => [(write path fault).message, fault.message]

end RunError

/-- What a run that may change files leaves. -/
structure Outcome (ε α : Type) where
  result : Except ε α
  tree : FileTree
  log : List Event

namespace Outcome

variable {ε α : Type}

/-- Events before an outcome. -/
def after (events : List Event) (outcome : Outcome ε α) : Outcome ε α :=
  { outcome with log := events ++ outcome.log }

@[simp] theorem after_result (events : List Event) (outcome : Outcome ε α) :
    (Outcome.after events outcome).result = outcome.result := rfl

@[simp] theorem after_tree (events : List Event) (outcome : Outcome ε α) :
    (Outcome.after events outcome).tree = outcome.tree := rfl

@[simp] theorem after_log (events : List Event) (outcome : Outcome ε α) :
    (Outcome.after events outcome).log = events ++ outcome.log := rfl

end Outcome

/-! ## 2. The schema -/

namespace Project

/-- A line for every namespace of a registry. -/
def namespaceEvents (r : Registry) : List Event :=
  r.namespaces.map fun ns => .namespaceLoaded ns (r.countIn ns)

/-- Loads the registry of a project's schema. -/
def loadRegistry (config : Config) (fs : FileSystem) : Logged RunError Registry :=
  match DataFile.rootTable fs config.schemaPath config.rootKey with
  | .error e => .fail (.load e)
  | .ok tree =>
    ((Registry.load config.schemaOptions tree).mapError (RunError.schema config.schemaPath)).andThen
      fun r => ⟨.ok r, namespaceEvents r⟩

/-! ## 3. Identifier domains -/

/-- An identifier field whose domain is not in the id registry. -/
structure UnknownDomain where
  dataType : String
  field : String
  domain : String
  deriving DecidableEq, Repr

def UnknownDomain.event (u : UnknownDomain) : Event :=
  .unknownDomain u.dataType u.field u.domain

/-- Whether a field is an identifier of a domain that the id registry does not hold. An identifier
    over an allowed base type has no domain. -/
def lacksDomain (config : Config) (ids : IdRegistry) (field : ResolvedField) : Bool :=
  field.isId && !config.schemaOptions.rules.allowedTypes.contains field.base
    && (ids.findByName field.base).isNone

/-- All fields whose domain is unknown, in the order of the schema. -/
def unknownDomains (config : Config) (ids : IdRegistry) (r : Registry) : List UnknownDomain :=
  r.types.flatMap fun d =>
    (d.fields.filter (lacksDomain config ids)).map fun field => ⟨d.name, field.name, field.base⟩

/-- Warns of unknown domains. Without an id registry there is one warning that it is missing. -/
def checkDomains (config : Config) (fs : FileSystem) (r : Registry) : Logged RunError Unit :=
  if fs.isFile config.idRegistryPath then
    ((DataFile.idRegistry fs config.idRegistryPath).mapError RunError.load).andThen fun ids =>
      .emit ((unknownDomains config ids r).map UnknownDomain.event)
  else .emit [.idRegistryMissing config.idRegistryPath]

/-! ## 4. Writing -/

/-- Takes the output directory away; that there is none is fine. -/
def clearOutput (fs : FileSystem) (dir : Path) : Outcome FileFault Unit :=
  match fs.removeDirectory dir with
  | ⟨.ok (), t⟩ => ⟨.ok (), t, [.outputCleared dir]⟩
  | ⟨.error .notFound, t⟩ => ⟨.ok (), t, []⟩
  | ⟨.error e, t⟩ => ⟨.error e, t, []⟩

/-- Writes a text below a directory, and gives the path it is written to. -/
def writeBelow (fs : FileSystem) (dir file : Path) (text : String) : Outcome FileFault Path :=
  match fs.writeDeep (dir.join file) text.toUTF8 with
  | ⟨.error e, t⟩ => ⟨.error e, t, []⟩
  | ⟨.ok (), t⟩ => ⟨.ok (dir.join file), t, [.fileCreated file]⟩

/-- Writes artifacts in order; the first that cannot be written ends the run. -/
def writeArtifacts (fs : FileSystem) (dir : Path) : List Artifact → Outcome RunError Unit
  | [] => ⟨.ok (), fs.tree, []⟩
  | artifact :: rest =>
    match writeBelow fs dir artifact.path artifact.text with
    | ⟨.error e, t, log⟩ => ⟨.error (.write (dir.join artifact.path) e), t, log⟩
    | ⟨.ok _, t, log⟩ => .after log (writeArtifacts (fs.withTree t) dir rest)

/-! ## 5. Generating -/

/-- What a run has generated. -/
structure GenerateSummary where
  dataTypes : Nat
  /-- The files relative to the output directory, in the order they were written in. -/
  files : List Path
  deriving DecidableEq, Repr

/-- All that is read and checked before files are touched. -/
def prepare (config : Config) (fs : FileSystem) : Logged RunError Registry :=
  match config.checkOutput fs.working with
  | .error e => .fail (.load e)
  | .ok () =>
    (loadRegistry config fs).andThen fun r =>
      (checkDomains config fs r).andThen fun () => .ok r

/-- Clears the output directory and writes all artifacts of a registry. -/
def replaceOutput (config : Config) (fs : FileSystem) (r : Registry) :
    Outcome RunError GenerateSummary :=
  let dir := config.outputDir
  let artifacts := Artifact.generateRegistry config.artifactOptions r
  match clearOutput fs dir with
  | ⟨.error e, t, log⟩ => ⟨.error (.write dir e), t, log⟩
  | ⟨.ok (), t, log⟩ =>
    match writeArtifacts (fs.withTree t) dir artifacts with
    | ⟨.error e, t, more⟩ => ⟨.error e, t, log ++ more⟩
    | ⟨.ok (), t, more⟩ =>
      ⟨.ok ⟨r.size, artifacts.map (·.path)⟩, t,
        log ++ more ++ [.generated artifacts.length r.size dir]⟩

/-- Generates all artifacts of a project. -/
def generate (config : Config) (fs : FileSystem) : Outcome RunError GenerateSummary :=
  match prepare config fs with
  | ⟨.error e, log⟩ => ⟨.error e, fs.tree, log⟩
  | ⟨.ok r, log⟩ => .after log (replaceOutput config fs r)

/-! ## 6. Validating -/

/-- What a run of the validation says in the end. -/
def reportEvent (report : ValidationReport) : Event :=
  if report.isClean then .validationPassed report.recordCount report.buckets.length
  else .validationFailed report.discrepancies.length report.offendingCount

/-- Checks all records of a project. -/
def validate (config : Config) (fs : FileSystem) : Logged RunError ValidationReport :=
  (loadRegistry config fs).andThen fun r =>
    ((Discovery.discover fs config.recordsDir config.rootKey).mapError RunError.load).andThen
      fun buckets =>
        ((MasterSchema.validate r buckets).mapError RunError.lookup).andThen fun report =>
          ⟨.ok report, [reportEvent report]⟩

end Project

end MasterSchema
