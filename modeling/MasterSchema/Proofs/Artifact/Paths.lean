import Mathlib.Data.List.Nodup
import MasterSchema.Artifact.Basic
import MasterSchema.Proofs.Namespace.Spelling

/-!
# Where artifacts lie

* Whatever the class prefix, the last name of an artifact's path ends in `.hpp` or `.cpp`
  (`getLast?_steps_pathOf`).
* If the class prefix has no slash, the path of an artifact is plain: the kind's directory, the
  segments of the namespace, the file's name (`parts_pathOf`).
* Then no two artifacts of a registry have the same path (`nodup_parts`).
-/

namespace MasterSchema.Artifact

/-! ## 1. File names -/

/-- What a file name has between the data type's name and the dot. -/
def stemEnd : ArtifactKind → String
  | .valueClass => ""
  | .declaration | .definition => "Repository"

def extension : ArtifactKind → String
  | .valueClass | .declaration => "hpp"
  | .definition => "cpp"

theorem fileName_eq (options : ArtifactOptions) (d : DataType) (kind : ArtifactKind) :
    fileName options d kind
      = options.classPrefix ++ (d.name ++ stemEnd kind ++ "." ++ extension kind) := by
  rw [← String.toList_inj]
  cases kind <;>
    simp [fileName, stemEnd, extension, ArtifactOptions.valueClass, ArtifactOptions.repository]

/-- A name that ends in an artifact's extension is one. -/
theorem component?_of_extension (front : String) (kind : ArtifactKind) :
    Path.component? (front ++ "." ++ extension kind)
      = some (.name (front ++ "." ++ extension kind)) := by
  have hlen : 4 ≤ (front ++ "." ++ extension kind).toList.length := by
    cases kind <;> simp [extension]
  have hspecial : ∀ special : String, special.toList.length < 4 →
      front ++ "." ++ extension kind ≠ special := by
    intro special hshort e
    rw [e] at hlen
    omega
  exact Path.component?_of_name (hspecial "" (by decide)) (hspecial "." (by decide))
    (hspecial ".." (by decide))

theorem slash_not_mem_stem {d : DataType} (h : nameFault? d.name = none) (kind : ArtifactKind) :
    '/' ∉ (d.name ++ stemEnd kind ++ "." ++ extension kind).toList := by
  have hd := (isIdentifier_spec (isIdentifier_of_nameFault? h)).2.1
  cases kind <;> simp [stemEnd, extension, hd]

/-- **Whatever the class prefix, an artifact's path ends in a name with the extension of its
    kind.** -/
theorem getLast?_steps_pathOf {options : ArtifactOptions} {d : DataType} (h : d.Named)
    (kind : ArtifactKind) : ∃ front, (pathOf options d kind).steps.getLast?
      = some (.name (front ++ "." ++ extension kind)) := by
  obtain ⟨before, last, hp⟩ := Path.parts_append options.classPrefix (slash_not_mem_stem h.name kind)
  have hname : last ++ (d.name ++ stemEnd kind ++ "." ++ extension kind)
      = last ++ (d.name ++ stemEnd kind) ++ "." ++ extension kind := by
    rw [String.append_assoc, String.append_assoc, String.append_assoc, String.append_assoc,
      String.append_assoc]
  refine ⟨last ++ (d.name ++ stemEnd kind), Path.getLast?_steps_join ?_ _⟩
  rw [fileName_eq, Path.steps, hp, hname, List.filterMap_append,
    List.filterMap_cons_some (component?_of_extension _ kind), List.getLast?_append]
  rfl

/-! ## 2. Parts -/

theorem segments_spec {d : DataType} (h : d.Named) {segment : String}
    (hs : segment ∈ d.ns.segments) : isIdentifier segment = true :=
  h.ns.identified segment hs

theorem slash_not_mem_fileName {options : ArtifactOptions} {d : DataType}
    (h : nameFault? d.name = none) (hslash : '/' ∉ options.classPrefix.toList) (kind : ArtifactKind) :
    '/' ∉ (fileName options d kind).toList := by
  rw [fileName_eq, String.toList_append, List.mem_append, not_or]
  exact ⟨hslash, slash_not_mem_stem h kind⟩

theorem component?_fileName (options : ArtifactOptions) (d : DataType) (kind : ArtifactKind) :
    Path.component? (fileName options d kind) = some (.name (fileName options d kind)) := by
  have hname : fileName options d kind
      = options.classPrefix ++ (d.name ++ stemEnd kind) ++ "." ++ extension kind := by
    rw [fileName_eq, String.append_assoc, String.append_assoc, String.append_assoc,
      String.append_assoc, String.append_assoc]
  rw [hname]
  exact component?_of_extension _ kind

/-- The last name of an artifact's path is the name of its file. -/
theorem fileName_pathOf {options : ArtifactOptions} {d : DataType} (h : nameFault? d.name = none)
    (hslash : '/' ∉ options.classPrefix.toList) (kind : ArtifactKind) :
    (pathOf options d kind).fileName = some (fileName options d kind) := by
  have hsteps : (Path.mk (fileName options d kind)).steps
      = [.name (fileName options d kind)] := by
    rw [Path.steps, Path.parts_of_not_mem (slash_not_mem_fileName h hslash kind)]
    exact List.filterMap_cons_some (component?_fileName options d kind)
  refine Path.fileName_of_getLast? (Path.getLast?_steps_join ?_ _)
  rw [hsteps]
  rfl

theorem component?_directoryName (kind : ArtifactKind) :
    Path.component? (directoryName kind) = some (.name (directoryName kind)) := by
  cases kind <;> decide

/-- The names on the way to an artifact, from the output directory on. -/
def namesOf (options : ArtifactOptions) (d : DataType) (kind : ArtifactKind) : List String :=
  directoryName kind :: d.ns.segments ++ [fileName options d kind]

theorem component?_of_mem_namesOf {options : ArtifactOptions} {d : DataType} (h : d.Named)
    {kind : ArtifactKind} : ∀ name ∈ namesOf options d kind,
      Path.component? name = some (.name name) := by
  intro name hm
  rcases List.mem_append.1 hm with hm | hm
  · rcases List.mem_cons.1 hm with rfl | hm
    · exact component?_directoryName kind
    · exact component?_of_identifier (segments_spec h hm)
  · rw [List.mem_singleton.1 hm]
    exact component?_fileName options d kind

theorem parts_directoryName (kind : ArtifactKind) :
    (Path.mk (directoryName kind)).parts = [directoryName kind] := by
  cases kind <;> exact Path.parts_of_not_mem (by decide)

/-- Below a namespace with segments an artifact's directory has them behind its kind's. -/
theorem parts_directory {d : DataType} (h : d.Named) (hsegments : d.ns.segments ≠ [])
    (kind : ArtifactKind) : ((Path.mk (directoryName kind)).join d.ns.directory).parts
      = directoryName kind :: d.ns.segments := by
  have hproper : d.ns.Proper := h.ns.identified.proper
  have hparts : d.ns.directory.parts = d.ns.segments :=
    Namespace.parts_directory hproper fun hroot => hsegments (hroot ▸ rfl)
  have hne : (Path.mk (directoryName kind)).text ≠ "" := by cases kind <;> decide
  have hends : (Path.mk (directoryName kind)).endsInSlash = false := by cases kind <;> decide
  rw [Path.parts_join (Namespace.isAbsolute_directory hproper) hne, hends, parts_directoryName,
    hparts]
  rfl

/-- In the root namespace the directory of the namespace is empty and leaves a slash at the end. -/
theorem parts_directory_root {d : DataType} (hsegments : d.ns.segments = [])
    (kind : ArtifactKind) {name : String} (hne : name ≠ "") (hslash : '/' ∉ name.toList) :
    (((Path.mk (directoryName kind)).join d.ns.directory).join ⟨name⟩).parts
      = [directoryName kind, name] := by
  have hempty : d.ns.directory = ⟨""⟩ := by rw [Namespace.directory, hsegments]; rfl
  have hends : ((Path.mk (directoryName kind)).join ⟨""⟩).endsInSlash = true := by
    cases kind <;> decide
  have hbase : ((Path.mk (directoryName kind)).join ⟨""⟩).text ≠ "" := by cases kind <;> decide
  have hbaseParts : ((Path.mk (directoryName kind)).join ⟨""⟩).parts = [directoryName kind, ""] := by
    cases kind <;> decide +kernel
  rw [hempty, Path.parts_join (Path.isAbsolute_name hne hslash) hbase, if_pos hends, hbaseParts,
    Path.parts_of_not_mem hslash]
  rfl

/-- **The parts of an artifact's path are the names on the way to it.** -/
theorem parts_pathOf {options : ArtifactOptions} {d : DataType} (h : d.Named)
    (hslash : '/' ∉ options.classPrefix.toList) (kind : ArtifactKind) :
    (pathOf options d kind).parts = namesOf options d kind := by
  have hne : ∀ name ∈ namesOf options d kind, name ≠ "" := by
    intro name hm e
    rw [e] at hm
    exact nomatch component?_of_mem_namesOf h "" hm
  have hfile : '/' ∉ (fileName options d kind).toList := slash_not_mem_fileName h.name hslash kind
  have hfilene : fileName options d kind ≠ "" :=
    hne _ (List.mem_append_right _ List.mem_cons_self)
  unfold pathOf namesOf
  by_cases hsegments : d.ns.segments = []
  · rw [parts_directory_root hsegments kind hfilene hfile, hsegments]
    rfl
  · have hbase := parts_directory h hsegments kind
    rw [Path.parts_join_name ?_ hfilene hfile, hbase]
    intro part hm
    rw [hbase] at hm
    exact hne part (List.mem_append_left _ hm)

theorem plain_pathOf {options : ArtifactOptions} {d : DataType} (h : d.Named)
    (hslash : '/' ∉ options.classPrefix.toList) (kind : ArtifactKind) :
    (pathOf options d kind).Plain := by
  intro part hm
  rw [parts_pathOf h hslash kind] at hm
  exact component?_of_mem_namesOf h part hm

/-! ## 3. No two artifacts have one path -/

theorem length_extension (kind : ArtifactKind) : (extension kind).toList.length = 3 := by
  cases kind <;> decide

/-- Directory and extension tell the kind. -/
theorem kind_ext : ∀ {kind kind' : ArtifactKind}, directoryName kind = directoryName kind' →
    extension kind = extension kind' → kind = kind' := by
  intro kind kind'
  cases kind <;> cases kind' <;> decide

theorem fileName_inj {options : ArtifactOptions} {d d' : DataType} {kind kind' : ArtifactKind}
    (hdir : directoryName kind = directoryName kind')
    (h : fileName options d kind = fileName options d' kind') : kind = kind' ∧ d.name = d'.name := by
  rw [fileName_eq, fileName_eq, String.append_right_inj] at h
  have hextension : extension kind = extension kind' := by
    have hl := congrArg String.toList h
    simp only [String.toList_append] at hl
    have hlen := (length_extension kind).trans (length_extension kind').symm
    exact String.toList_inj.1 (List.append_inj' hl hlen).2
  obtain rfl := kind_ext hdir hextension
  rw [String.append_left_inj, String.append_left_inj, String.append_left_inj] at h
  exact ⟨rfl, h⟩

theorem namesOf_inj {options : ArtifactOptions} {d d' : DataType} {kind kind' : ArtifactKind}
    (h : namesOf options d kind = namesOf options d' kind') : kind = kind' ∧ d.key = d'.key := by
  obtain ⟨hfront, hlast⟩ := List.append_inj' h rfl
  obtain ⟨hdir, hsegments⟩ := List.cons.inj hfront
  obtain ⟨hkind, hname⟩ := fileName_inj hdir (List.singleton_inj.1 hlast)
  refine ⟨hkind, Prod.ext ?_ hname⟩
  rw [DataType.key, DataType.key]
  exact congrArg Namespace.mk hsegments

theorem mem_generateRegistry {options : ArtifactOptions} {r : Registry} {a : Artifact} :
    a ∈ generateRegistry options r ↔ ∃ d ∈ r.types, ∃ kind, a = generate options d kind := by
  rw [generateRegistry, List.mem_flatMap]
  refine exists_congr fun d => and_congr_right fun _ => ?_
  rw [generateAll, List.mem_map]
  constructor
  · intro hsome
    obtain ⟨kind, _, rfl⟩ := hsome
    exact ⟨kind, rfl⟩
  · intro hsome
    obtain ⟨kind, rfl⟩ := hsome
    exact ⟨kind, by cases kind <;> decide, rfl⟩

/-- **The paths of the artifacts of a registry differ in their parts.** -/
theorem nodup_parts {options : ArtifactOptions} {r : Registry} (h : ∀ d ∈ r.types, d.Named)
    (hslash : '/' ∉ options.classPrefix.toList) :
    ((generateRegistry options r).map (·.path.parts)).Nodup := by
  have hparts : (generateRegistry options r).map (·.path.parts)
      = r.types.flatMap fun d => ArtifactKind.all.map (namesOf options d) := by
    rw [generateRegistry, List.map_flatMap]
    refine List.flatMap_congr fun d hd => ?_
    rw [generateAll, List.map_map]
    exact List.map_congr_left fun kind _ => parts_pathOf (h d hd) hslash kind
  rw [hparts, List.nodup_flatMap]
  constructor
  · intro d _
    exact List.Nodup.map_on (fun kind _ kind' _ he => (namesOf_inj he).1) (by decide)
  · refine (List.pairwise_map.1 r.distinct).imp ?_
    intro d d' hkey names hm hm'
    obtain ⟨kind, _, rfl⟩ := List.mem_map.1 hm
    obtain ⟨kind', _, he⟩ := List.mem_map.1 hm'
    exact hkey (namesOf_inj he).2.symm

theorem plain_of_mem {options : ArtifactOptions} {r : Registry} (h : ∀ d ∈ r.types, d.Named)
    (hslash : '/' ∉ options.classPrefix.toList) {a : Artifact}
    (ha : a ∈ generateRegistry options r) : a.path.Plain := by
  obtain ⟨d, hd, kind, rfl⟩ := mem_generateRegistry.1 ha
  exact plain_pathOf (h d hd) hslash kind

/-- No two artifacts of a registry have paths with the same components. -/
theorem nodup_components {options : ArtifactOptions} {r : Registry} (h : ∀ d ∈ r.types, d.Named)
    (hslash : '/' ∉ options.classPrefix.toList) :
    ((generateRegistry options r).map (·.path.components)).Nodup := by
  have hcomponents : (generateRegistry options r).map (·.path.components)
      = ((generateRegistry options r).map (·.path.parts)).map (List.map Component.name) := by
    rw [List.map_map]
    exact List.map_congr_left fun a ha => (plain_of_mem h hslash ha).components_eq
  rw [hcomponents]
  exact (nodup_parts h hslash).map (List.map_injective_iff.2 fun _ _ => Component.name.inj)

/-- The paths of the artifacts, data type by data type. -/
theorem paths_generateRegistry (options : ArtifactOptions) (r : Registry) :
    (generateRegistry options r).map (·.path)
      = r.types.flatMap fun d => ArtifactKind.all.map (pathOf options d) := by
  rw [generateRegistry, List.map_flatMap]
  rfl

theorem length_generateRegistry (options : ArtifactOptions) (r : Registry) :
    (generateRegistry options r).length = 3 * r.size := by
  rw [generateRegistry, Registry.size]
  induction r.types with
  | nil => rfl
  | cons d types ih =>
    rw [List.flatMap_cons, List.length_append, ih, List.length_cons]
    have hthree : (generateAll options d).length = 3 := rfl
    omega

end MasterSchema.Artifact
