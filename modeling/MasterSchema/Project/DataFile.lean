import MasterSchema.Format.Basic
import MasterSchema.LoadError
import MasterSchema.Log

/-!
# Data files of a project

* `DataFile.rootTable` is the table that a schema file or a record file has under its root key;
* `DataFile.idRegistry` is the id registry that an id file holds. All entries of the file are read
  before the domains are checked.
-/

namespace MasterSchema.DataFile

/-- The format of a file that is to be loaded; it is asked for before the file is. -/
def formatOf (file : Path) : Except LoadError DataFormat :=
  match DataFormat.ofPath? file with
  | some format => .ok format
  | none => .error (.unsupportedFormat file)

/-- What is read of a file's text, in the file's format. -/
def content {α : Type} (fs : FileSystem) (file : Path)
    (read? : String → DataFormat → Option α) : Except LoadError α :=
  match formatOf file with
  | .error e => .error e
  | .ok format =>
    match fs.load file with
    | .error e => .error e
    | .ok text =>
      match read? text format with
      | none => .error (.badContent file .malformed)
      | some a => .ok a

/-! ## 1. Root tables -/

/-- The table under a key of a file's table. -/
def tableUnder (file : Path) (key : String) (table : Table) : Except LoadError Table :=
  match table.get? key with
  | some (.table entries) => .ok entries
  | some _ => .error (.badContent file (.noTable key))
  | none => .error (.missingTable file key)

/-- The table of a file under its root key, entries in file order. -/
def rootTable (fs : FileSystem) (file : Path) (key : String) : Except LoadError Table :=
  match content fs file DataFormat.readTable with
  | .error e => .error e
  | .ok table => tableUnder file key table

/-! ## 2. Id registries -/

/-- A name as an id domain has one; a date counts as its text. -/
def domainName? : Value → Option String
  | .text s => some s
  | .date s => some s
  | _ => none

def bound? : Value → Option Int
  | .integer n => some n
  | _ => none

/-- The domain that three values make. -/
def domainOf (name first last : Value) : Option IdDomain := do
  let name ← domainName? name
  let first ← bound? first
  let last ← bound? last
  some ⟨name, first, last⟩

/-- The domain of an entry: a table with the members of a domain, or an array of just them. -/
def domain? : Value → Option IdDomain
  | .table entries => do
    let name ← Table.get? entries "name"
    let first ← Table.get? entries "begin"
    let last ← Table.get? entries "end"
    domainOf name first last
  | .array [name, first, last] => domainOf name first last
  | _ => none

/-- The domains of all entries, in order; the first that is none is reported. -/
def domains (file : Path) : Table → Except LoadError (List IdDomain)
  | [] => .ok []
  | (key, v) :: rest =>
    match domain? v with
    | none => .error (.badContent file (.noDomain key))
    | some domain =>
      match domains file rest with
      | .error e => .error e
      | .ok more => .ok (domain :: more)

/-- The id registry of entries. -/
def idRegistryOf (file : Path) (entries : Table) : Except LoadError IdRegistry :=
  match domains file entries with
  | .error e => .error e
  | .ok domains =>
    match IdRegistry.make domains with
    | .error e => .error (.badIdRegistry file e)
    | .ok ids => .ok ids

/-- The id registry of an id file. -/
def readIdRegistry (fs : FileSystem) (file : Path) : Except LoadError IdRegistry :=
  match content fs file DataFormat.readIdEntries with
  | .error e => .error e
  | .ok entries => idRegistryOf file entries

/-- Loads the id registry of an id file. -/
def idRegistry (fs : FileSystem) (file : Path) : Logged LoadError IdRegistry :=
  match readIdRegistry fs file with
  | .error e => .fail e
  | .ok ids => ⟨.ok ids, [.idRegistryLoaded file ids.domains.length]⟩

end MasterSchema.DataFile
