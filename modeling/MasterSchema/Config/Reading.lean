import MasterSchema.Config.Basic
import MasterSchema.Format.Basic
import MasterSchema.Text

/-!
# Reading a configuration

A configuration is a TOML file of sections. Every section and every member may be missing, and then
has its default; a member that is there replaces the whole default. Nothing else may be there: an
unknown key or a value of the wrong kind makes the file no configuration.

A section is mostly written as a table. It may also be an array of its members in their order.
-/

namespace MasterSchema

namespace ConfigFile

/-! ## 1. Members and sections -/

/-- A member of a section: its key, and what its value changes. -/
structure Member (α : Type) where
  key : String
  set? : Value → α → Option α

/-- A member whose value must be of a kind. -/
def member {α β : Type} (key : String) (read? : Value → Option β) (set : β → α → α) : Member α :=
  ⟨key, fun v a => (read? v).map fun b => set b a⟩

/-- One entry of a section. -/
def setEntry {α : Type} (members : List (Member α)) (a : α) (entry : String × Value) : Option α :=
  (members.find? fun m => m.key == entry.1).bind fun m => m.set? entry.2 a

/-- The section that entries change. -/
def setEntries {α : Type} (members : List (Member α)) (entries : Table) (a : α) : Option α :=
  entries.foldlM (setEntry members) a

/-- The section that a value changes. -/
def setSection {α : Type} (members : List (Member α)) : Value → α → Option α
  | .table entries, a => setEntries members entries a
  | .array items, a => (members.zip items).foldlM (fun a (m, v) => m.set? v a) a
  | _, _ => none

/-! ## 2. Kinds of values -/

def path? (v : Value) : Option Path :=
  v.asText?.map fun text => ⟨text⟩

def texts? : Value → Option (List String)
  | .array items => items.mapM Value.asText?
  | _ => none

/-- A set of names, kept in increasing order. -/
def names? (v : Value) : Option (List String) :=
  (texts? v).map Text.nameSet

/-- Texts by key. -/
def textsByKey? (v : Value) : Option (List (String × String)) :=
  (Format.entriesOf v).bind fun entries =>
    entries.mapM fun (key, v) => v.asText?.map fun text => (key, text)

/-! ## 3. The sections -/

def layoutMembers : List (Member Layout) :=
  [member "root" path? fun p l => { l with root := p },
   member "schema" path? fun p l => { l with schema := p },
   member "id_registry" path? fun p l => { l with idRegistry := p },
   member "records" path? fun p l => { l with records := p },
   member "output" path? fun p l => { l with output := p }]

def schemaMembers : List (Member Config) :=
  [member "root_key" Value.asText? fun s c => { c with rootKey := s },
   member "declaration_marker" Value.asText? fun s c =>
     { c with schemaOptions := { c.schemaOptions with marker := s } }]

def ruleMembers : List (Member Rules) :=
  [member "allowed_types" names? fun ns r => { r with allowedTypes := ns },
   member "heavy_types" names? fun ns r => { r with heavyTypes := ns },
   member "substitutions" textsByKey? fun ts r => { r with substitutions := ts },
   member "id_tag" Value.asText? fun s r => { r with idTag := s },
   member "primary_key_tag" Value.asText? fun s r => { r with primaryKeyTag := s },
   member "id_suffix" Value.asText? fun s r => { r with idSuffix := s }]

def writingMembers : List (Member ArtifactOptions) :=
  [member "indent" Value.asText? fun s o => { o with indent := s },
   member "namespaces" texts? fun ns o => { o with namespaces := ns },
   member "class_prefix" Value.asText? fun s o => { o with classPrefix := s },
   member "ids_header" Value.asText? fun s o => { o with idsHeader := s },
   member "id_value_type" Value.asText? fun s o => { o with idValueType := s },
   member "repository_header" Value.asText? fun s o => { o with repositoryHeader := s },
   member "repository_base" Value.asText? fun s o => { o with repositoryBase := s },
   member "instance_header" Value.asText? fun s o => { o with instanceHeader := s },
   member "instance_base" Value.asText? fun s o => { o with instanceBase := s },
   member "record_source_header" Value.asText? fun s o => { o with recordSourceHeader := s },
   member "record_source_type" Value.asText? fun s o => { o with recordSourceType := s },
   member "record_key_type" Value.asText? fun s o => { o with recordKeyType := s },
   member "type_headers" textsByKey? fun ts o => { o with typeHeaders := ts }]

/-- The rules inside a configuration. -/
def setRules (v : Value) (c : Config) : Option Config :=
  (setSection ruleMembers v c.schemaOptions.rules).map fun rules =>
    { c with schemaOptions := { c.schemaOptions with rules := rules } }

def sections : List (Member Config) :=
  [⟨"path", fun v c => (setSection layoutMembers v c.layout).map fun l => { c with layout := l }⟩,
   ⟨"schema", setSection schemaMembers⟩,
   ⟨"resolver", setRules⟩,
   ⟨"codegen", fun v c =>
     (setSection writingMembers v c.writing).map fun o => { c with writing := o }⟩]

/-- The configuration that a text writes, without its directory. -/
def read (text : String) : Option Config :=
  (Toml.read text).bind fun entries => setEntries sections entries {}

end ConfigFile

namespace Config

/-- The directory of a configuration file. -/
def baseOf (file : Path) : Path :=
  match file.parent with
  | some dir => if dir.text == "" then ⟨"."⟩ else dir
  | none => ⟨"."⟩

/-- The configuration in a file. -/
def load (fs : FileSystem) (file : Path) : Except LoadError Config :=
  match fs.load file with
  | .error e => .error e
  | .ok text =>
    match ConfigFile.read text with
    | none => .error (.badConfig file .malformed)
    | some config => .ok { config with base := baseOf file }

end Config

end MasterSchema
