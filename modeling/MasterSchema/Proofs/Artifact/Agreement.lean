import MasterSchema.Proofs.Artifact.ClassReading
import MasterSchema.Proofs.Artifact.Paths
import MasterSchema.Proofs.Artifact.RepositoryReading

/-!
# The three artifacts of a data type agree

Value class, declaration and definition are written one by one, and each is read back for itself.
What they say of headers, classes, key and fields is the same (`Agreement`), for the default rules
and options and any identifiers as names (`agreement_of_made`).

Under the default rules a storage type is made of the characters of identifiers and colons
(`storage_chars`), so that every other character ends it.
-/

namespace MasterSchema

open Text

variable {d : DataType}

/-! ## 1. Storage types under the default rules -/

/-- The domains of identifiers and the segments of the namespace are identifiers. -/
structure DataType.Spelled (d : DataType) : Prop where
  bases : ∀ field ∈ d.fields, field.isId = true → isIdentifier field.base = true
  segments : ∀ segment ∈ d.ns.segments, isIdentifier segment = true

def isTypeChar (c : Char) : Bool :=
  isIdentifierPart c || c == ':'

theorem storage_chars (ha : d.Accepted {}) (hs : d.Spelled) {field : ResolvedField}
    (hf : field ∈ d.fields) : ∀ c ∈ field.storageType.toList, isTypeChar c = true := by
  intro c hc
  have hsettled := ha.settled field hf
  cases hid : field.isId with
  | true =>
    rw [hsettled.domain hid, String.toList_append, List.mem_append] at hc
    have hpart : isIdentifierPart c = true := by
      rcases hc with hc | hc
      · exact isIdentifierPart_of_mem (hs.bases field hf hid) c hc
      · have hsuffix : ({} : Rules).idSuffix.toList.all isIdentifierPart = true := by decide
        exact List.all_eq_true.1 hsuffix c hc
    simp [isTypeChar, hpart]
  | false =>
    obtain ⟨hbase, hstorage⟩ := hsettled.plain hid
    have hallowed : ∀ base ∈ ({} : Rules).allowedTypes,
        ((({} : Rules).substitution? base).getD base).toList.all isTypeChar = true := by
      decide +kernel
    rw [hstorage] at hc
    exact List.all_eq_true.1 (hallowed field.base hbase) c hc

theorem not_mem_storage (ha : d.Accepted {}) (hs : d.Spelled) {c : Char}
    (hc : isTypeChar c = false) : ∀ field ∈ d.fields, c ∉ field.storageType.toList := by
  intro field hf hm
  rw [storage_chars ha hs hf c hm] at hc
  cases hc

/-- A character that is in no option, no identifier and no type is in nothing that is written. -/
theorem Artifact.without_default (ha : d.Accepted {}) (hs : d.Spelled) {c : Char}
    (hc : isTypeChar c = false) (htexts : ∀ s ∈ ({} : ArtifactOptions).texts, c ∉ s.toList) :
    Artifact.Without c {} d where
  options := htexts
  storage := not_mem_storage ha hs hc
  segments segment hm := not_mem_of_isIdentifier (hs.segments segment hm)
    (Bool.or_eq_false_iff.1 hc).1

theorem Artifact.unbroken_default (ha : d.Accepted {}) (hs : d.Spelled) :
    ∀ c ∈ ['\n', ',', '(', ')'], Artifact.Without c {} d := by
  simp only [List.forall_mem_cons]
  refine ⟨?_, ?_, ?_, ?_, by simp⟩
  all_goals exact Artifact.without_default ha hs (by decide) (by decide)

/-! ## 2. The lines of the artifacts, read back -/

/-- The lines that are read from the text of an artifact with the default options. -/
def linesAt (d : DataType) (kind : ArtifactKind) : List String :=
  linesOf (Artifact.textOf {} d kind)

section Reading

variable (ha : d.Accepted {}) (hs : d.Spelled)

include ha hs

theorem linesAt_eq (kind : ArtifactKind) : linesAt d kind = Artifact.lines {} d kind :=
  Artifact.linesOf_textOf (Artifact.unbroken_default ha hs '\n' (by simp)) ha kind

theorem read_declaration : Declaration.ofLines? "    " (linesAt d .declaration)
    = some ⟨Artifact.headers {} d .declaration, ({} : ArtifactOptions).repository d,
      d.primaryKey.storageType, ({} : ArtifactOptions).valueClass d,
      ({} : ArtifactOptions).repository d⟩ := by
  rw [linesAt_eq ha hs]
  exact Declaration.read (by decide) ha.fields_ne_nil (by decide) (by decide)
    (not_mem_storage ha hs (by decide) d.primaryKey ha.primaryKey_mem)

theorem read_definition : Definition.ofLines? "    " (linesAt d .definition)
    = some ⟨Artifact.headers {} d .definition, ({} : ArtifactOptions).repository d,
      RecordRead.ofField {} d.primaryKey, ({} : ArtifactOptions).valueClass d,
      d.fields.map (RecordRead.ofField {})⟩ := by
  rw [linesAt_eq ha hs]
  exact Definition.read (by decide) ha.fields_ne_nil
    (fun field hf => isIdentifier_of_nameFault? (ha.settled field hf).name)
    (not_mem_storage ha hs (by decide)) ha.primaryKey_mem

end Reading

/-! ## 3. Agreement -/

/-- What is read from the three artifacts of a data type agrees. -/
structure Agreement (d : DataType) (s : ValueClass.Sections) (parameters : List (List Char))
    (declaration : Declaration) (definition : Definition) : Prop where
  /-- Behind the headers of its bases the declaration includes the file of the value class. -/
  valueHeader : ∃ header, (Artifact.pathOf {} d .valueClass).fileName = some header
    ∧ declaration.headers = ["MasterDataRepository.hpp", "RepositoryRegistry.hpp", header]
      ++ if d.hasId then ["IDs.hpp"] else []
  /-- The definition includes the file of the declaration. -/
  declarationHeader : ∃ header, (Artifact.pathOf {} d .declaration).fileName = some header
    ∧ definition.headers = [header, "TomlAsset.hpp"]
  valueClass : Artifact.definedClass? (linesAt d .valueClass) = some declaration.value
  made : definition.value = declaration.value
  repository : definition.repository = declaration.repository
  registered : declaration.registered = declaration.repository
  onlyKey : d.fields.filter (·.isPrimaryKey) = [d.primaryKey]
  keyType : declaration.key = d.primaryKey.storageType
  key : definition.key.key = d.primaryKey.name
    ∧ definition.key.yields = d.primaryKey.storageType
  length : definition.arguments.length = d.fields.length
  /-- An argument reads the field at its place, as the type of the field's member. -/
  argument : ∀ i field, d.fields[i]? = some field → ∃ read, definition.arguments[i]? = some read
    ∧ read.key = field.name ∧ read.yields = field.storageType
    ∧ ValueClass.FieldAt "    " s parameters i field

/-- **The three artifacts of a data type agree on headers, classes, key and fields**, under the
default rules and options. -/
theorem agreement_of_made {name : String} {ns : Namespace} {tokens : List (String × String)}
    (hmake : DataType.make {} name ns tokens = .ok d) (hs : d.Spelled) :
    ∃ s parameters declaration definition,
      ValueClass.Sections.ofLines? (linesAt d .valueClass) = some s
      ∧ ValueClass.parametersOf? s.constructor = some parameters
      ∧ Declaration.ofLines? "    " (linesAt d .declaration) = some declaration
      ∧ Definition.ofLines? "    " (linesAt d .definition) = some definition
      ∧ Agreement d s parameters declaration definition := by
  have ha := (DataType.make_accepted hmake).1
  have hfree := Artifact.unbroken_default ha hs
  have hfile : ∀ kind, (Artifact.pathOf {} d kind).fileName = some (Artifact.fileName {} d kind) :=
    Artifact.fileName_pathOf ha.name (by decide)
  refine ⟨ValueClass.written {} d, _, _, _, ValueClass.read_text ha hfree,
    ValueClass.read_constructorLine ha hfree, read_declaration ha hs, read_definition ha hs, ?_⟩
  constructor
  case valueHeader => exact ⟨_, hfile .valueClass, rfl⟩
  case declarationHeader => exact ⟨_, hfile .declaration, rfl⟩
  case valueClass =>
    rw [linesAt_eq ha hs]
    exact Artifact.definedClass_valueClass
  case made => rfl
  case repository => rfl
  case registered => rfl
  case onlyKey => exact ha.primaryKey
  case keyType => rfl
  case key => exact ⟨RecordRead.ofField_key d.primaryKey, RecordRead.ofField_yields d.primaryKey⟩
  case length => exact List.length_map _
  case argument =>
    intro i field hi
    have hread : (d.fields.map (RecordRead.ofField {}))[i]? = some (RecordRead.ofField {} field) := by
      rw [List.getElem?_map, hi]
      rfl
    exact ⟨_, hread, RecordRead.ofField_key field, RecordRead.ofField_yields field,
      ValueClass.fieldAt_written ha hfree hi⟩

theorem agreement_glyph : ValueClass.glyph.Spelled
    ∧ ∃ s parameters declaration definition,
      ValueClass.Sections.ofLines? (linesAt ValueClass.glyph .valueClass) = some s
      ∧ ValueClass.parametersOf? s.constructor = some parameters
      ∧ Declaration.ofLines? "    " (linesAt ValueClass.glyph .declaration) = some declaration
      ∧ Definition.ofLines? "    " (linesAt ValueClass.glyph .definition) = some definition
      ∧ Agreement ValueClass.glyph s parameters declaration definition := by
  have hs : ValueClass.glyph.Spelled := ⟨by decide, by decide⟩
  exact ⟨hs, agreement_of_made ValueClass.glyph_made hs⟩

end MasterSchema
