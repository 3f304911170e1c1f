import MasterSchema.FileTree.Walk
import MasterSchema.IdDomain

/-!
# What can be wrong with input files

`LoadError` holds the causes for which a configuration, a schema, an id registry or the records are
not loaded. A cause may rest on others below it; `chain` lists the messages of all.
-/

namespace MasterSchema

/-! ## 1. Details -/

/-- Why a data file cannot be read as what it should be. -/
inductive ContentFault where
  /-- Not of the file's format, or not of the kind that is asked for. -/
  | malformed
  /-- Something else than a table under the key. -/
  | noTable (key : String)
  /-- An entry that is no id domain. -/
  | noDomain (key : String)
  deriving DecidableEq, Repr

def ContentFault.message : ContentFault → String
  | .malformed => "not a file of its format"
  | .noTable key => "'" ++ key ++ "' is not a table"
  | .noDomain key => "id." ++ key ++ ": not an id domain"

/-- What a run reads. -/
inductive Input where
  | schema
  | idRegistry
  | records
  deriving DecidableEq, Repr

def Input.name : Input → String
  | .schema => "schema"
  | .idRegistry => "id registry"
  | .records => "records directory"

/-- Why a configuration is refused. -/
inductive ConfigFault where
  | malformed
  /-- Clearing the output directory would take an input away. -/
  | outputContains (input : Input) (file : Path)
  deriving DecidableEq, Repr

def ConfigFault.message : ConfigFault → String
  | .malformed => "not a configuration"
  | .outputContains input file =>
      "output directory would contain the " ++ input.name ++ " " ++ file.text

/-! ## 2. Load errors -/

inductive LoadError where
  | missingFile (file : Path)
  | missingDirectory (dir : Path)
  | unsupportedFormat (file : Path)
  | conflictingFormats (first second : Path)
  | badContent (file : Path) (fault : ContentFault)
  | missingTable (file : Path) (key : String)
  | badIdRegistry (file : Path) (cause : IdRegistryError)
  | badConfig (file : Path) (fault : ConfigFault)
  | unreadable (file : Path) (fault : FileFault)
  /-- A directory below the one that is gone through. -/
  | unlistable (root dir : Path) (fault : FileFault)
  deriving DecidableEq, Repr

namespace LoadError

/-- What is said of a directory whose entries cannot be listed. -/
def listingMessage (dir : Path) (fault : FileFault) : String :=
  "IO error for operation on " ++ dir.text ++ ": " ++ fault.message

def message : LoadError → String
  | .missingFile file => "file not found: " ++ file.text
  | .missingDirectory dir => "directory not found: " ++ dir.text
  | .unsupportedFormat file => "unsupported format for file: " ++ file.text
  | .conflictingFormats first second =>
      "conflicting formats: " ++ first.text ++ " and " ++ second.text
  | .badContent file fault => "parse error in " ++ file.text ++ ": " ++ fault.message
  | .missingTable file key => "missing table '" ++ key ++ "' in " ++ file.text
  | .badIdRegistry file cause => "invalid id registry " ++ file.text ++ ": " ++ cause.message
  | .badConfig file fault => "invalid configuration " ++ file.text ++ ": " ++ fault.message
  | .unreadable file fault => "failed to read " ++ file.text ++ ": " ++ fault.message
  | .unlistable root dir fault => "failed to walk " ++ root.text ++ ": " ++ listingMessage dir fault

/-- The messages of an error and of the causes below it. -/
def chain : LoadError → List String
  | .badIdRegistry file cause => [(badIdRegistry file cause).message, cause.message]
  | .unreadable file fault => [(unreadable file fault).message, fault.message]
  | .unlistable root dir fault =>
    [(unlistable root dir fault).message, listingMessage dir fault, fault.message]
  | e => [e.message]

end LoadError

/-- The text of a file that is to be loaded. -/
def FileSystem.load (fs : FileSystem) (file : Path) : Except LoadError String :=
  match fs.readText file with
  | .ok text => .ok text
  | .error .notFound => .error (.missingFile file)
  | .error fault => .error (.unreadable file fault)

end MasterSchema
