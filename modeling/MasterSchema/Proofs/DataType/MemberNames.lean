import MasterSchema.Artifact.Options
import MasterSchema.Proofs.DataType.Making
import MasterSchema.Proofs.Field.Accessors

/-!
# The names in a value class

A value class has an accessor and a private member for every field, and it has a name itself.

* No accessor or member has the name of another one (`nodup_members`): a member has an underscore in
  its name and an accessor has none.
* Two fields are refused for one accessor only if their names are the same but for case and
  underscores (`bare_eq_of_collision`).
* Accessors are compared with one another, not with the class. A field whose name begins with an
  underscore may have an accessor that is called as the class is; every type name without an
  underscore allows such a field (`named_as_class_iff`).
-/

namespace MasterSchema.DataType

open ResolvedField

variable {rules : Rules} {name : String} {ns : Namespace} {fields : List (String × String)}
  {d : DataType}

/-! ## 1. Accessors and members -/

theorem underscore_mem_memberName (field : ResolvedField) : '_' ∈ field.memberName.toList := by
  simp [memberName]

/-- The names of the fields of a data type that is made are identifiers. -/
theorem isIdentifier_of_make (h : make rules name ns fields = .ok d) :
    ∀ field ∈ d.fields, isIdentifier field.name = true := by
  intro field hf
  exact isIdentifier_of_nameFault? ((make_accepted h).1.settled field hf).name

/-- **No accessor or member of a data type has the name of another one.** -/
theorem nodup_members (h : make rules name ns fields = .ok d) :
    (d.fields.map (·.accessorName) ++ d.fields.map (·.memberName)).Nodup := by
  have hmembers : d.fields.map (·.memberName) = (d.fields.map (·.name)).map ("m_" ++ ·) := by
    rw [List.map_map]
    rfl
  refine List.nodup_append.2 ⟨(make_eq_ok_iff.1 h).1.accessors.distinct, ?_, ?_⟩
  · rw [hmembers]
    exact (nodup_names_of_make h).map fun _ _ => (String.append_right_inj _).1
  · intro accessor ha member hm hsame
    obtain ⟨field, hf, rfl⟩ := List.mem_map.1 ha
    obtain ⟨other, _, rfl⟩ := List.mem_map.1 hm
    refine underscore_not_mem_accessorName (isIdentifier_of_make h field hf) ?_
    rw [hsame]
    exact underscore_mem_memberName other

/-- Fields of one accessor have one name, but for case and underscores. -/
theorem bare_eq_of_accessorName_eq {field other : ResolvedField}
    (h : field.accessorName = other.accessorName) : bare field.name = bare other.name := by
  rw [← lowered_accessorName field, ← lowered_accessorName other, h]

/-- **Two fields that are refused for one accessor have one name, but for case and underscores.** -/
theorem bare_eq_of_collision {owner accessor first second : String} {place : Namespace}
    (h : make rules name ns fields
      = .error (.accessorCollision owner place accessor first second)) :
    first ∈ fields.map (·.1) ∧ second ∈ fields.map (·.1) ∧ bare first = bare second := by
  cases make_eq_error.1 h with
  | taken _ hfields htaken =>
    cases htaken with
    | collision hsplit _ _ hsame =>
      rw [← (resolveAll_spec (resolveAll_of_resolves hfields)).1, hsplit]
      exact ⟨by simp, by simp, bare_eq_of_accessorName_eq hsame⟩

/-- **An accessor is what is left of the field's name without underscores, up to case.** It has
letters and digits alone, and is an identifier exactly if the first of them is a letter. So no
accessor or member of a data type has the name of another one, and two fields are refused for one
accessor only if their names are the same but for case and underscores. -/
theorem accessorName_spec :
    (∀ field : ResolvedField, isIdentifier field.name = true →
      (∀ c ∈ field.accessorName.toList, c.isAlphanum = true)
      ∧ lowered field.accessorName.toList = bare field.name
      ∧ (isIdentifier field.accessorName = true ↔ ∃ first,
        field.name.toList.find? (· != '_') = some first ∧ first.isAlpha = true))
    ∧ ∀ rules name ns fields,
      (∀ d, make rules name ns fields = .ok d →
        (d.fields.map (·.accessorName) ++ d.fields.map (·.memberName)).Nodup)
      ∧ ∀ owner place accessor first second,
        make rules name ns fields
          = .error (.accessorCollision owner place accessor first second) →
        first ∈ fields.map (·.1) ∧ second ∈ fields.map (·.1) ∧ bare first = bare second := by
  refine ⟨fun field h => ?_, fun rules name ns fields => ⟨?_, ?_⟩⟩
  · exact ⟨isAlphanum_of_mem_accessorName h, lowered_accessorName field,
      isIdentifier_accessorName h⟩
  · exact fun _ => nodup_members
  · exact fun _ _ _ _ _ => bare_eq_of_collision

/-- Names of underscores and digits, and two names that differ in case and underscores. -/
theorem accessorName_strokes :
    (isIdentifier "__1st_Stroke" = true
      ∧ isIdentifier (ResolvedField.ofDeclaration {} ⟨"__1st_Stroke", "int", false, false⟩).accessorName = false)
    ∧ (∃ d, make {} "Line" .root [("id", "int:PKey"), ("_id", "int"), ("m_id", "int")] = .ok d
      ∧ (d.fields.map (·.accessorName) ++ d.fields.map (·.memberName)).Nodup)
    ∧ make {} "Line" .root [("stroke_count", "int:PKey"), ("Stroke__Count", "int")]
        = .error (.accessorCollision "Line" .root "strokeCount" "stroke_count" "Stroke__Count")
      ∧ bare "stroke_count" = bare "Stroke__Count" := by
  obtain ⟨hread, hmade⟩ := accessorName_spec
  refine ⟨⟨by decide, ?_⟩, ?_, by decide +kernel, ?_⟩
  · refine Bool.eq_false_iff.2 fun hidentifier => ?_
    obtain ⟨_, _, hiff⟩ := hread (ResolvedField.ofDeclaration {} ⟨"__1st_Stroke", "int", false, false⟩) (by decide)
    obtain ⟨first, hfirst, halpha⟩ := hiff.1 hidentifier
    obtain rfl : '1' = first := Option.some.inj hfirst
    cases halpha
  · have hok : (make {} "Line" .root [("id", "int:PKey"), ("_id", "int"), ("m_id", "int")]).isOk
        = true := by decide +kernel
    cases hmake : make {} "Line" .root [("id", "int:PKey"), ("_id", "int"), ("m_id", "int")] with
    | error e =>
      rw [hmake] at hok
      cases hok
    | ok d => exact ⟨d, rfl, (hmade _ _ _ _).1 d hmake⟩
  · have hrefused : make {} "Line" .root [("stroke_count", "int:PKey"), ("Stroke__Count", "int")]
        = .error (.accessorCollision "Line" .root "strokeCount" "stroke_count" "Stroke__Count") := by
      decide +kernel
    exact ((hmade _ _ _ _).2 _ _ _ _ _ hrefused).2.2

/-! ## 2. Accessors and the class -/

/-- An accessor is called as the value class of a data type is under the default options. -/
def NamedAsClass (d : DataType) (field : ResolvedField) : Prop :=
  field.accessorName = ({} : ArtifactOptions).valueClass d

/-- **An accessor is called as the class exactly if the field's name begins with an underscore and
its other words are, capitalized, the name of the class.** -/
theorem namedAsClass_iff {field : ResolvedField} : NamedAsClass d field ↔
    ∃ words, field.name.toList.splitOn '_' = [] :: words
      ∧ (words.map capitalized).flatten = (({} : ArtifactOptions).valueClass d).toList := by
  have hclass : (({} : ArtifactOptions).valueClass d).toList
      = 'M' :: ("aster".toList ++ d.name.toList) := by
    simp [ArtifactOptions.valueClass]
  rw [NamedAsClass, ← String.toList_inj, accessorName, String.toList_ofList]
  constructor
  · intro h
    cases hwords : field.name.toList.splitOn '_' with
    | nil => exact absurd hwords (List.splitOn_ne_nil '_' _)
    | cons word words =>
      rw [hwords] at h
      cases word with
      | nil => exact ⟨words, rfl, h⟩
      | cons c word =>
        -- a first word begins in lower case, the class does not
        rw [hclass] at h
        have hupper : c.toLower.isUpper = false := isUpper_toLower c
        rw [(List.cons.inj h).1] at hupper
        cases hupper
  · rintro ⟨words, hwords, hflatten⟩
    rw [hwords]
    exact hflatten

/-- The name of a field whose accessor is called as the class of a type name. -/
def classSpelling (name : String) : String :=
  String.ofList (spelling ("Master" ++ name).toList)

theorem classSpelling_eq (name : String) :
    classSpelling name = "_" ++ String.ofList ('m' :: spelling ("aster" ++ name).toList) := by
  have hchars : ("Master" ++ name).toList = 'M' :: ("aster" ++ name).toList := by simp
  have hspelling : spelling ('M' :: ("aster" ++ name).toList)
      = '_' :: 'm' :: spelling ("aster" ++ name).toList := rfl
  rw [classSpelling, hchars, hspelling, String.ofList_cons, String.singleton_eq_ofList]

theorem codeName_classSpelling (h : CodeName name) : CodeName (classSpelling name) where
  identifier := by
    have hparts : ∀ c ∈ ("aster" ++ name).toList, isIdentifierPart c = true := by
      rw [String.toList_append]
      exact List.forall_mem_append.2
        ⟨List.all_eq_true.1 (by decide), isIdentifierPart_of_mem h.identifier⟩
    rw [classSpelling_eq, isIdentifier_append (by decide)]
    · rfl
    · rw [String.toList_ofList]
      exact List.forall_mem_cons.2 ⟨rfl, isIdentifierPart_spelling hparts⟩
  unreserved := by
    rw [classSpelling_eq]
    exact isReserved_of_prefix (by decide +kernel) _

/-- A field that is the primary key of its type, and whose accessor is called as the class. -/
def classField (name : String) : ResolvedField :=
  .ofDeclaration {} ⟨classSpelling name, "int", false, true⟩

theorem resolve_classField (h : CodeName name) :
    ResolvedField.resolve {} (classSpelling name) "int:PKey" = .ok (classField name) := by
  have hparts : FieldDeclaration.tokenParts "int:PKey" = ["int", "PKey"] := by decide +kernel
  rw [ResolvedField.resolve, FieldDeclaration.read, checkName_of_codeName (codeName_classSpelling h),
    hparts]
  rfl

theorem accessorName_classField (h : '_' ∉ name.toList) :
    (classField name).accessorName = "Master" ++ name := by
  have hclass : '_' ∉ ("Master" ++ name).toList := by
    rw [String.toList_append, List.mem_append]
    exact not_or.2 ⟨by decide, h⟩
  rw [← String.toList_inj, toList_accessorName]
  change humps false (String.ofList (spelling ("Master" ++ name).toList)).toList = _
  rw [String.toList_ofList, humps_spelling hclass]

/-- A type name without an underscore allows a field whose accessor is called as the class. -/
theorem fit_classField (hname : CodeName name) (h : '_' ∉ name.toList) :
    Fit {} name [(classSpelling name, "int:PKey")] [classField name] where
  name := hname
  fields := .cons (resolve_classField hname) .nil
  accessors := by
    have haccessor : CodeName (classField name).accessorName := by
      rw [accessorName_classField h]
      refine ⟨?_, isReserved_of_prefix (by decide +kernel) name⟩
      exact (isIdentifier_append (by decide) (isIdentifierPart_of_mem hname.identifier)).2 rfl
    exact ⟨by simpa using haccessor, by simp⟩
  key := rfl

/-- The value class of a data type that is made is called by the type's name. -/
theorem valueClass_of_make (h : make rules name ns fields = .ok d) :
    ({} : ArtifactOptions).valueClass d = "Master" ++ name := by
  rw [← (make_eq_ok_iff.1 h).2.2.1]
  rfl

/-- **Accessors may be called as the class.** That is so exactly for a field whose name begins with
an underscore and has the name of the class in its other words, and no check refuses such a field:
a type name that is accepted is accepted with one exactly if it has no underscore. -/
theorem named_as_class_iff (h : make rules name ns fields = .ok d) :
    (∀ field ∈ d.fields, NamedAsClass d field ↔
      ∃ words, field.name.toList.splitOn '_' = [] :: words
        ∧ (words.map capitalized).flatten = ("Master" ++ name).toList)
    ∧ ((∃ others made, make {} name ns others = .ok made
        ∧ ∃ field ∈ made.fields, NamedAsClass made field) ↔ '_' ∉ name.toList) := by
  have hname : CodeName name := (make_eq_ok_iff.1 h).1.name
  refine ⟨fun field _ => ?_, ?_, fun hunderscore => ?_⟩
  · rw [← valueClass_of_make h]
    exact namedAsClass_iff
  · rintro ⟨others, made, hmade, field, hf, hclass⟩ hunderscore
    refine underscore_not_mem_accessorName (isIdentifier_of_make hmade field hf) ?_
    rw [hclass, valueClass_of_make hmade, String.toList_append]
    exact List.mem_append_right _ hunderscore
  · obtain ⟨_, _, hmake⟩ := make_of_fit ns (fit_classField hname hunderscore)
    refine ⟨_, _, hmake, classField name, List.mem_singleton_self _, ?_⟩
    rw [NamedAsClass, valueClass_of_make hmake, accessorName_classField hunderscore]

/-- Beside another key, too, a field may have an accessor that is called as the class. -/
theorem named_as_class_glyph :
    let id := ResolvedField.ofDeclaration {} ⟨"id", "int", false, true⟩
    let count := ResolvedField.ofDeclaration {} ⟨"_master_glyph", "int", false, false⟩
    let glyph : DataType := ⟨"Glyph", .root, [id, count], id, []⟩
    make {} "Glyph" .root [("id", "int:PKey"), ("_master_glyph", "int")] = .ok glyph
      ∧ NamedAsClass glyph count ∧ ¬ NamedAsClass glyph id
      ∧ ∃ fields d, make {} "Glyph" .root fields = .ok d
        ∧ ∃ field ∈ d.fields, NamedAsClass d field := by
  intro id count glyph
  have hmake : make {} "Glyph" .root [("id", "int:PKey"), ("_master_glyph", "int")] = .ok glyph := by
    decide +kernel
  obtain ⟨hfield, hname⟩ := named_as_class_iff hmake
  refine ⟨hmake, ?_, ?_, hname.2 (by decide)⟩
  · exact (hfield count (by simp [glyph])).2
      ⟨["master".toList, "glyph".toList], by decide, by decide⟩
  · intro h
    obtain ⟨_, hwords, _⟩ := (hfield id (by simp [glyph])).1 h
    have hword : (id.name.toList.splitOn '_').head? = some "id".toList := by decide
    rw [hwords] at hword
    cases hword

end MasterSchema.DataType
