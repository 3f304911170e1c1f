import Mathlib.Data.List.Nodup
import Mathlib.Data.List.Pairwise
import MasterSchema.Proofs.Artifact.RepositoryReading
import MasterSchema.Proofs.Registry.Built

/-!
# Classes and record sources of a registry

A registry tells its data types apart by name and namespace. What is written from them does not
always do so:

* the classes of a namespace have the names of its data types with something around them, and a
  data type can be called as another one's repository is; no two classes have one name exactly if
  none is (`nodup_classesIn_iff`);
* the records of a data type are opened by its name and not by its namespace, so data types of one
  name share them (`recordSource_spec`).
-/

namespace MasterSchema

open Text

namespace Artifact

/-! ## 1. The classes of a namespace -/

/-- The classes that the artifacts of a data type define. -/
def definedClasses (options : ArtifactOptions) (d : DataType) : List String :=
  [ArtifactKind.valueClass, .declaration].filterMap fun kind =>
    definedClass? (lines options d kind)

/-- The classes that are defined in a namespace. -/
def classesIn (options : ArtifactOptions) (r : Registry) (ns : Namespace) : List String :=
  (r.inNamespace ns).flatMap (definedClasses options)

theorem definedClasses_eq (options : ArtifactOptions) (d : DataType) :
    definedClasses options d = [options.valueClass d, options.repository d] := by
  simp [definedClasses, definedClass_valueClass, definedClass_declaration]

/-- A data type is called as the repository of another, prefix apart. -/
def NamedAsRepository (d d' : DataType) : Prop :=
  d'.name = d.name ++ "Repository"

theorem not_namedAsRepository_self (d : DataType) : ¬ NamedAsRepository d d := by
  intro h
  have hlength := congrArg String.length h
  rw [String.length_append] at hlength
  have hword : "Repository".length = 10 := by decide
  omega

/-- The two classes of a data type have different names. -/
theorem nodup_definedClasses (options : ArtifactOptions) (d : DataType) :
    (definedClasses options d).Nodup := by
  have hne : options.valueClass d ≠ options.repository d := by
    intro h
    rw [ArtifactOptions.valueClass, ArtifactOptions.repository, String.append_assoc,
      String.append_right_inj] at h
    exact not_namedAsRepository_self d h
  rw [definedClasses_eq]
  simpa using hne

/-- **Data types of different names share no class name exactly if neither is called as the
repository of the other.** -/
theorem disjoint_definedClasses_iff {options : ArtifactOptions} {d d' : DataType}
    (hne : d.name ≠ d'.name) :
    List.Disjoint (definedClasses options d) (definedClasses options d')
      ↔ ¬ NamedAsRepository d d' ∧ ¬ NamedAsRepository d' d := by
  have hvalue : options.valueClass d ≠ options.valueClass d' := by
    simpa [ArtifactOptions.valueClass, String.append_right_inj] using hne
  have hrepository : options.repository d ≠ options.repository d' := by
    simpa [ArtifactOptions.repository, String.append_left_inj, String.append_right_inj] using hne
  have hsuffix : ∀ a b : DataType,
      options.valueClass b = options.repository a ↔ NamedAsRepository a b := fun a b => by
    rw [ArtifactOptions.valueClass, ArtifactOptions.repository, String.append_assoc,
      String.append_right_inj]
    rfl
  rw [definedClasses_eq, definedClasses_eq, ← hsuffix d d', ← hsuffix d' d]
  simp [hvalue, hrepository, eq_comm, and_comm]

/-- **No two classes of a namespace have one name exactly if none of its data types is called as the
repository of another.** -/
theorem nodup_classesIn_iff (options : ArtifactOptions) (r : Registry) (ns : Namespace) :
    (classesIn options r ns).Nodup
      ↔ ∀ d ∈ r.inNamespace ns, ∀ d' ∈ r.inNamespace ns, ¬ NamedAsRepository d d' := by
  have htypes : (r.inNamespace ns).Nodup := (List.Nodup.of_map _ r.distinct).filter _
  have hnames : ∀ d ∈ r.inNamespace ns, ∀ d' ∈ r.inNamespace ns, d ≠ d' → d.name ≠ d'.name := by
    intro d hd d' hd' hne hname
    obtain ⟨hd, hns⟩ := Registry.mem_inNamespace.1 hd
    obtain ⟨hd', hns'⟩ := Registry.mem_inNamespace.1 hd'
    exact hne (Registry.eq_of_key_eq hd hd' (Prod.ext (hns.trans hns'.symm) hname))
  rw [classesIn, List.nodup_flatMap]
  constructor
  · intro h d hd d' hd' hnamed
    have hne : d ≠ d' := by
      rintro rfl
      exact not_namedAsRepository_self d hnamed
    have hsymm : Std.Symm (Function.onFun List.Disjoint (definedClasses options)) :=
      ⟨fun _ _ hdisjoint name hl hr => hdisjoint hr hl⟩
    have hdisjoint : List.Disjoint (definedClasses options d) (definedClasses options d') :=
      h.2.forall hd hd' hne
    exact ((disjoint_definedClasses_iff (hnames d hd d' hd' hne)).1 hdisjoint).1 hnamed
  · intro h
    refine ⟨fun d _ => nodup_definedClasses options d, ?_⟩
    refine htypes.pairwise_of_forall_ne fun d hd d' hd' hne => ?_
    exact (disjoint_definedClasses_iff (hnames d hd d' hd' hne)).2 ⟨h d hd d' hd', h d' hd' d hd⟩

/-- A declaration with an integer as primary key. -/
def declarationOf (name : String) : Value :=
  .table [("data_type_name", .text name), ("field", .table [("id", .text "int:PKey")])]

/-- A data type that is called as the repository of another is loaded, and both classes are defined
under one name. -/
theorem classes_collide : ∃ r, (Registry.load {} [("md_Glyph", declarationOf "Glyph"),
      ("md_GlyphRepository", declarationOf "GlyphRepository")]).result = .ok r
    ∧ classesIn {} r .root = ["MasterGlyph", "MasterGlyphRepository", "MasterGlyphRepository",
      "MasterGlyphRepositoryRepository"]
    ∧ ¬ (classesIn {} r .root).Nodup := by
  have hclasses : (Registry.load {} [("md_Glyph", declarationOf "Glyph"),
      ("md_GlyphRepository", declarationOf "GlyphRepository")]).result.map (classesIn {} · .root)
        = .ok ["MasterGlyph", "MasterGlyphRepository", "MasterGlyphRepository",
          "MasterGlyphRepositoryRepository"] := by
    decide +kernel
  obtain ⟨r, hload, hview⟩ := exists_of_map_eq_ok hclasses
  refine ⟨r, hload, hview, ?_⟩
  rw [hview]
  decide

/-! ## 2. Record sources -/

/-- The source that a line opens to read records from. -/
def openedSource? (options : ArtifactOptions) (line : String) : Option String :=
  (stripped? (options.indent ++ "const " ++ options.recordSourceType ++ " toml(U\"") "\");"
    line).map String.ofList

/-- A line before the one that begins to define an `initialize`. -/
def isBeforeInitialize (line : String) : Bool :=
  (Definition.initialised? line).isNone

/-- The source that is opened on the line behind the first. -/
def sourceBehind? (options : ArtifactOptions) : List String → Option String
  | _ :: line :: _ => openedSource? options line
  | _ => none

/-- The source that the definition of a repository opens, first of all in its `initialize`. -/
def recordSource? (options : ArtifactOptions) (d : DataType) : Option String :=
  sourceBehind? options ((lines options d .definition).dropWhile isBeforeInitialize)

theorem openedSource?_written (options : ArtifactOptions) (name : String) :
    openedSource? options (options.indent ++ "const " ++ options.recordSourceType ++ " toml(U\""
      ++ name ++ "\");") = some name := by
  have hline : (options.indent ++ "const " ++ options.recordSourceType ++ " toml(U\"" ++ name
      ++ "\");").toList
      = (options.indent ++ "const " ++ options.recordSourceType ++ " toml(U\"").toList
        ++ (name.toList ++ "\");".toList) := by
    simp
  rw [openedSource?, stripped?_of_eq hline, Option.map_some, String.ofList_toList]

/-- **The record source of a data type is its name.** -/
theorem recordSource?_eq (options : ArtifactOptions) (d : DataType) :
    recordSource? options d = some d.name := by
  have hbefore : ∀ line ∈ prologue options d .definition, isBeforeInitialize line = true := by
    intro line hl
    rw [isBeforeInitialize, Definition.initialised?_prologue line hl]
    rfl
  have hstart : ¬ isBeforeInitialize ("void " ++ options.repository d ++ "::initialize() \x7b")
      = true := by
    rw [isBeforeInitialize, Definition.initialised?_written]
    exact Bool.false_ne_true
  obtain ⟨rest, hlines⟩ : ∃ rest, lines options d .definition = prologue options d .definition
      ++ ("void " ++ options.repository d ++ "::initialize() \x7b")
        :: (options.indent ++ "const " ++ options.recordSourceType ++ " toml(U\"" ++ d.name
          ++ "\");") :: rest := by
    rw [lines_eq]
    exact ⟨_, rfl⟩
  rw [recordSource?, hlines, List.dropWhile_append_of_pos hbefore,
    List.dropWhile_cons_of_neg hstart]
  exact openedSource?_written options d.name

/-- **The records of a data type are opened by its name, so two data types open one source exactly
if they have one name in different namespaces.** -/
theorem recordSource_spec (options : ArtifactOptions) (r : Registry) :
    (∀ d ∈ r.types, recordSource? options d = some d.name)
    ∧ ∀ d ∈ r.types, ∀ d' ∈ r.types, d ≠ d' →
      (recordSource? options d = recordSource? options d' ↔ d.name = d'.name ∧ d.ns ≠ d'.ns) := by
  refine ⟨fun d _ => recordSource?_eq options d, fun d hd d' hd' hne => ?_⟩
  rw [recordSource?_eq, recordSource?_eq, Option.some_inj]
  constructor
  · intro hname
    exact ⟨hname, fun hns => hne (Registry.eq_of_key_eq hd hd' (Prod.ext hns hname))⟩
  · intro h
    exact h.1

/-- Data types of one name in two namespaces. -/
def twoNamespaces : Table :=
  [("kanji", .table [("md_Item", declarationOf "Item")]),
    ("ui", .table [("md_Item", declarationOf "Item")])]

theorem load_twoNamespaces : ∃ r, (Registry.load {} twoNamespaces).result = .ok r
    ∧ r.types.map DataType.key = [(⟨["kanji"]⟩, "Item"), (⟨["ui"]⟩, "Item")] := by
  have hkeys : (Registry.load {} twoNamespaces).result.map (fun r => r.types.map DataType.key)
      = .ok [(⟨["kanji"]⟩, "Item"), (⟨["ui"]⟩, "Item")] := by
    decide +kernel
  exact exists_of_map_eq_ok hkeys

/-- Two data types of a loaded registry open one record source. -/
theorem recordSource_shared : ∃ r, (Registry.load {} twoNamespaces).result = .ok r
    ∧ ∃ d ∈ r.types, ∃ d' ∈ r.types, d.key ≠ d'.key ∧ recordSource? {} d = recordSource? {} d' := by
  obtain ⟨r, hload, hkeys⟩ := load_twoNamespaces
  obtain ⟨d, hd, hkey⟩ : ∃ d ∈ r.types, d.key = (⟨["kanji"]⟩, "Item") :=
    List.mem_map.1 (hkeys ▸ by decide)
  obtain ⟨d', hd', hkey'⟩ : ∃ d ∈ r.types, d.key = (⟨["ui"]⟩, "Item") :=
    List.mem_map.1 (hkeys ▸ by decide)
  refine ⟨r, hload, d, hd, d', hd', ?_, ?_⟩
  · rw [hkey, hkey']
    decide
  · have hname : d.name = d'.name := (congrArg Prod.snd hkey).trans (congrArg Prod.snd hkey').symm
    rw [recordSource?_eq, recordSource?_eq, hname]

end Artifact

end MasterSchema
