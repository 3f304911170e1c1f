import MasterSchema.Proofs.Artifact.Lines

/-!
# Reading a value class

The text of a value class is read back line by line.

* `Sections` are the lines between the lines that are the same in every value class;
* `Accessor`, `Variable` and `Initialiser` are what a line or a parameter says;
* the lemmas of section 2 read the items back, `read_sections` the sections;
* so all four lists of the class follow the fields in declaration order (`one_order`).
-/

namespace MasterSchema.ValueClass

open Text

/-! ## 1. Readers -/

/-- The lines of a class, section by section. -/
structure Sections where
  accessors : List String
  members : List String
  constructor : String
  initialisers : List String
  deriving DecidableEq, Repr

def Sections.ofLines? (lines : List String) : Option Sections := do
  let (_, rest) ← cutFirst "public: // public getter" lines
  let (accessors, rest) ← cutFirst "private: // field" rest
  let (members, rest) ← cutFirst "public: // ctor" rest
  let constructor ← rest.head?
  let (initialisers, _) ← cutFirst "\x7d;" rest.tail
  some ⟨accessors, members, constructor, initialisers⟩

/-- An accessor: the type it gives, its name, and the member it returns. -/
structure Accessor where
  type : String
  name : String
  member : String
  deriving DecidableEq, Repr

def Accessor.ofLine? (indent line : String) : Option Accessor := do
  let rest ← line.toList.dropPrefix? indent.toList
  let (front, back) ← cutFirst '(' rest
  let (type, name) ← cutLast ' ' front
  let back ← back.dropPrefix? ") const \x7b return ".toList
  let member ← back.dropSuffix? "; \x7d".toList
  some ⟨String.ofList type, String.ofList name, String.ofList member⟩

/-- A member or a parameter. -/
structure Variable where
  type : String
  name : String
  deriving DecidableEq, Repr

def Variable.ofText? (text : List Char) : Option Variable :=
  (cutLast ' ' text).map fun cut => ⟨String.ofList cut.1, String.ofList cut.2⟩

def Variable.ofLine? (indent line : String) : Option Variable := do
  let rest ← line.toList.dropPrefix? indent.toList
  let text ← rest.dropSuffix? [';']
  Variable.ofText? text

/-- The parameters between the parentheses of a constructor. -/
def parametersOf? (line : String) : Option (List (List Char)) := do
  let (_, rest) ← cutFirst '(' line.toList
  let (inner, _) ← cutFirst ')' rest
  some (listed inner)

/-- A member and what it is initialised with. -/
structure Initialiser where
  member : String
  argument : String
  deriving DecidableEq, Repr

def Initialiser.ofLine? (indent line : String) : Option Initialiser := do
  let rest ← line.toList.dropPrefix? (indent ++ indent).toList
  let (member, rest) ← cutFirst '(' rest
  let (argument, close) ← cutFirst ')' rest
  if close = ",".toList ∨ close = " \x7b\x7d".toList then
    some ⟨String.ofList member, String.ofList argument⟩
  else none

variable {rules : Rules} {options : ArtifactOptions} {d : DataType} {field : ResolvedField}

/-! ## 2. Items -/

theorem read_accessorLine (hcall : '(' ∉ field.callType.toList)
    (haccessor : isIdentifier field.accessorName = true) :
    Accessor.ofLine? options.indent (accessorLine options field)
      = some ⟨field.callType, field.accessorName, field.memberName⟩ := by
  have hline : (accessorLine options field).toList = options.indent.toList
      ++ ((field.callType.toList ++ ' ' :: field.accessorName.toList)
        ++ '(' :: (") const \x7b return ".toList
          ++ (field.memberName.toList ++ "; \x7d".toList))) := by
    simp [accessorLine]
  have hblank : ' ' ∉ field.accessorName.toList := not_mem_of_isIdentifier haccessor (by decide)
  have hfront : '(' ∉ field.callType.toList ++ ' ' :: field.accessorName.toList := by
    simp [hcall, not_mem_of_isIdentifier haccessor (c := '(') (by decide)]
  simp only [Accessor.ofLine?, hline, dropPrefix?_append, cutFirst_append hfront,
    cutLast_append hblank, dropSuffix?_append, Option.bind_eq_bind, Option.bind_some,
    String.ofList_toList]

theorem read_memberLine (hname : isIdentifier field.name = true) :
    Variable.ofLine? options.indent (memberLine options field)
      = some ⟨field.storageType, field.memberName⟩ := by
  have hline : (memberLine options field).toList = options.indent.toList
      ++ ((field.storageType.toList ++ ' ' :: field.memberName.toList) ++ [';']) := by
    simp [memberLine]
  have hblank : ' ' ∉ field.memberName.toList :=
    not_mem_of_isIdentifier (ResolvedField.isIdentifier_memberName hname) (by decide)
  simp only [Variable.ofLine?, Variable.ofText?, hline, dropPrefix?_append, dropSuffix?_append,
    cutLast_append hblank, Option.bind_eq_bind, Option.bind_some, Option.map_some,
    String.ofList_toList]

theorem read_parameter (hname : isIdentifier field.name = true) :
    Variable.ofText? (parameter field).toList = some ⟨field.callType, field.name⟩ := by
  have htext : (parameter field).toList = field.callType.toList ++ ' ' :: field.name.toList := by
    simp [parameter]
  have hblank : ' ' ∉ field.name.toList := not_mem_of_isIdentifier hname (by decide)
  simp only [Variable.ofText?, htext, cutLast_append hblank, Option.map_some,
    String.ofList_toList]

theorem read_initialiser (hname : isIdentifier field.name = true) {close : String}
    (hclose : close = "," ∨ close = " \x7b\x7d") :
    Initialiser.ofLine? options.indent (initialiser options field ++ close)
      = some ⟨field.memberName, field.name⟩ := by
  have hline : (initialiser options field ++ close).toList
      = (options.indent ++ options.indent).toList ++ (field.memberName.toList
        ++ '(' :: (field.name.toList ++ ')' :: close.toList)) := by
    simp [initialiser]
  have hopen : '(' ∉ field.memberName.toList :=
    not_mem_of_isIdentifier (ResolvedField.isIdentifier_memberName hname) (by decide)
  have hshut : ')' ∉ field.name.toList := not_mem_of_isIdentifier hname (by decide)
  have hend : close.toList = ",".toList ∨ close.toList = " \x7b\x7d".toList :=
    hclose.imp (congrArg _) (congrArg _)
  simp only [Initialiser.ofLine?, hline, dropPrefix?_append, cutFirst_append hopen,
    cutFirst_append hshut, Option.bind_eq_bind, Option.bind_some, if_pos hend,
    String.ofList_toList]

/-! ## 3. Sections -/

/-- The sections that are written. -/
def written (options : ArtifactOptions) (d : DataType) : Sections where
  accessors := d.fields.map (accessorLine options)
  members := d.fields.map (memberLine options)
  constructor := constructorLine options d
  initialisers := withSeparators "," " \x7b\x7d" (d.fields.map (initialiser options))

theorem read_sections (hne : d.fields ≠ []) :
    Sections.ofLines? (Artifact.lines options d .valueClass) = some (written options d) := by
  have hlines : Artifact.lines options d .valueClass
      = (Artifact.prologue options d .valueClass
          ++ ["class " ++ options.valueClass d ++ " \x7b"])
        ++ "public: // public getter" :: (d.fields.map (accessorLine options)
        ++ "private: // field" :: (d.fields.map (memberLine options)
        ++ "public: // ctor" :: constructorLine options d
        :: (withSeparators "," " \x7b\x7d" (d.fields.map (initialiser options))
        ++ "\x7d;" :: "" :: (Artifact.namespaceNames options d).map fun _ => "\x7d"))) := by
    simp [Artifact.lines_eq, Artifact.body, body]
  have hpublic : "public: // public getter" ∉ Artifact.prologue options d .valueClass
      ++ ["class " ++ options.valueClass d ++ " \x7b"] := by
    intro hm
    rcases List.mem_append.1 hm with hm | hm
    · exact absurd rfl (Artifact.head_prologue_ne hm (by decide))
    · have hhead := congrArg (·.toList.head?) (List.mem_singleton.1 hm)
      simp at hhead
  have hprivate : "private: // field" ∉ d.fields.map (accessorLine options) := by
    intro hm
    obtain ⟨field, _, hline⟩ := List.mem_map.1 hm
    exact ne_of_last (by decide) (by decide) hline
  have hctor : "public: // ctor" ∉ d.fields.map (memberLine options) := by
    intro hm
    obtain ⟨field, _, hline⟩ := List.mem_map.1 hm
    exact ne_of_last (by decide) (by decide) hline
  have hend : "\x7d;" ∉ withSeparators "," " \x7b\x7d" (d.fields.map (initialiser options)) := by
    have hall : ∀ line ∈ withSeparators "," " \x7b\x7d" (d.fields.map (initialiser options)),
        line ≠ "\x7d;" := forall_withSeparators hne fun field _ close hclose => by
      rcases hclose with rfl | rfl
      · exact ne_of_last (by decide) (by decide)
      · exact ne_of_last (by decide) (by decide)
    exact fun hm => hall _ hm rfl
  simp only [Sections.ofLines?, hlines, cutFirst_append hpublic, cutFirst_append hprivate,
    cutFirst_append hctor, cutFirst_append hend, Option.bind_eq_bind, Option.bind_some,
    List.head?_cons, List.tail_cons, written]

/-! ## 4. One order -/

/-- What the items at one place of a class say is what one field says. -/
structure FieldAt (indent : String) (s : Sections) (parameters : List (List Char)) (i : Nat)
    (field : ResolvedField) : Prop where
  accessor : s.accessors[i]?.bind (Accessor.ofLine? indent)
    = some ⟨field.callType, field.accessorName, field.memberName⟩
  member : s.members[i]?.bind (Variable.ofLine? indent)
    = some ⟨field.storageType, field.memberName⟩
  parameter : parameters[i]?.bind Variable.ofText? = some ⟨field.callType, field.name⟩
  initialiser : s.initialisers[i]?.bind (Initialiser.ofLine? indent)
    = some ⟨field.memberName, field.name⟩

theorem read_initialisers (options : ArtifactOptions) (ha : d.Accepted rules) :
    (written options d).initialisers.map (Initialiser.ofLine? options.indent)
      = d.fields.map fun field => some ⟨field.memberName, field.name⟩ :=
  map_withSeparators ha.fields_ne_nil fun field hf _ hclose =>
    read_initialiser (isIdentifier_of_nameFault? (ha.settled field hf).name) hclose

section Written

variable (ha : d.Accepted rules) (hfree : ∀ c ∈ ['\n', ',', '(', ')'], Artifact.Without c options d)

include ha hfree

theorem read_text :
    Sections.ofLines? (linesOf (Artifact.textOf options d .valueClass))
      = some (written options d) := by
  rw [Artifact.linesOf_textOf (hfree '\n' (by simp)) ha]
  exact read_sections ha.fields_ne_nil

/-- The constructor has one parameter for each field. -/
theorem read_constructorLine :
    parametersOf? (constructorLine options d)
      = some (d.fields.map fun field => (parameter field).toList) := by
  have hopen : '(' ∉ options.indent.toList ++ (options.valueClass d).toList := by
    have htexts := (hfree '(' (by simp)).options
    have hindent := htexts options.indent (by simp [ArtifactOptions.texts])
    have hprefix := htexts options.classPrefix (by simp [ArtifactOptions.texts])
    have hname : '(' ∉ d.name.toList :=
      not_mem_of_isIdentifier (isIdentifier_of_nameFault? ha.name) (by decide)
    simp [ArtifactOptions.valueClass, hindent, hprefix, hname]
  have hparameters : ∀ {c : Char}, c ∈ ['\n', ',', '(', ')'] → c ∉ "const &".toList →
      isIdentifierPart c = false → c ≠ ' ' → ∀ text ∈ d.fields.map parameter, c ∉ text.toList := by
    intro c hmark hconst hpart hblank text hm
    obtain ⟨field, hf, rfl⟩ := List.mem_map.1 hm
    have hcall := (hfree c hmark).callType ha hconst hf
    have hname := not_mem_of_isIdentifier
      (isIdentifier_of_nameFault? (ha.settled field hf).name) hpart
    simp [parameter, hcall, hname, hblank]
  have hline : (constructorLine options d).toList
      = (options.indent.toList ++ (options.valueClass d).toList)
        ++ '(' :: ((joined ", " (d.fields.map parameter)).toList ++ ')' :: " :".toList) := by
    simp [constructorLine]
  have hshut : ')' ∉ (joined ", " (d.fields.map parameter)).toList :=
    not_mem_joined (by decide) (hparameters (by simp) (by decide) (by decide) (by decide))
  have hlisted := listed_joined (by simpa using ha.fields_ne_nil)
    (hparameters (by simp) (by decide) (by decide) (by decide))
  simp only [parametersOf?, hline, cutFirst_append hopen, cutFirst_append hshut,
    Option.bind_eq_bind, Option.bind_some, hlisted, List.map_map, Function.comp_def]

/-- **The items at the place of a field say what the field says.** -/
theorem fieldAt_written {i : Nat} (hi : d.fields[i]? = some field) :
    FieldAt options.indent (written options d) (d.fields.map fun field => (parameter field).toList)
      i field := by
  have hf : field ∈ d.fields := List.mem_of_getElem? hi
  have hname := isIdentifier_of_nameFault? (ha.settled field hf).name
  have haccessor := isIdentifier_of_nameFault? (ha.accessors field hf)
  have hcall := (hfree '(' (by simp)).callType ha (by decide) hf
  constructor
  · simp [written, hi, read_accessorLine hcall haccessor]
  · simp [written, hi, read_memberLine hname]
  · simp [hi, read_parameter hname]
  · have hread := congrArg (·[i]?) (read_initialisers options ha)
    simp only [List.getElem?_map, hi, Option.map_some, Option.map_eq_some_iff] at hread
    obtain ⟨line, hline, hread⟩ := hread
    simp [hline, hread]

end Written

/-- **Accessors, members, parameters and initialisers of a value class are as many as the fields and
follow them in declaration order**, if nothing that is written into the class has a line feed, a
comma or a parenthesis. -/
theorem one_order {name : String} {ns : Namespace} {tokens : List (String × String)}
    (hmake : DataType.make rules name ns tokens = .ok d)
    (hfree : ∀ c ∈ ['\n', ',', '(', ')'], Artifact.Without c options d) :
    ∃ s parameters, Sections.ofLines? (linesOf (Artifact.textOf options d .valueClass)) = some s
      ∧ parametersOf? s.constructor = some parameters
      ∧ s.accessors.length = d.fields.length ∧ s.members.length = d.fields.length
      ∧ parameters.length = d.fields.length ∧ s.initialisers.length = d.fields.length
      ∧ ∀ i field, d.fields[i]? = some field → FieldAt options.indent s parameters i field := by
  have ha := (DataType.make_accepted hmake).1
  have hinitialisers := congrArg List.length (read_initialisers options ha)
  rw [List.length_map, List.length_map] at hinitialisers
  exact ⟨written options d, _, read_text ha hfree, read_constructorLine ha hfree,
    List.length_map _, List.length_map _, List.length_map _, hinitialisers,
    fun i field hi => fieldAt_written ha hfree hi⟩

/-- A data type whose primary key is an identifier and stands behind another field. -/
def glyph : DataType where
  name := "Glyph"
  ns := ⟨["ui"]⟩
  fields :=
    [⟨"text", "string", "s3d::String", "const s3d::String&", false, false⟩,
     ⟨"glyph_id", "glyph", "glyphID", "glyphID", true, true⟩]
  primaryKey := ⟨"glyph_id", "glyph", "glyphID", "glyphID", true, true⟩
  includes := ["string"]

theorem glyph_made : DataType.make {} "Glyph" ⟨["ui"]⟩
    [("text", "string"), ("glyph_id", "glyph:ID:PKey")] = .ok glyph := by
  decide +kernel

theorem one_order_glyph : (∀ c ∈ ['\n', ',', '(', ')'], Artifact.Without c {} glyph)
    ∧ ∃ s parameters, Sections.ofLines? (linesOf (Artifact.textOf {} glyph .valueClass)) = some s
      ∧ parametersOf? s.constructor = some parameters
      ∧ s.accessors.length = 2 ∧ s.members.length = 2 ∧ parameters.length = 2
      ∧ s.initialisers.length = 2
      ∧ ∀ i field, glyph.fields[i]? = some field → FieldAt "    " s parameters i field := by
  have hfree : ∀ c ∈ ['\n', ',', '(', ')'], Artifact.Without c {} glyph := by
    simp only [List.forall_mem_cons]
    refine ⟨?_, ?_, ?_, ?_, by simp⟩
    all_goals exact ⟨by decide, by decide, by decide⟩
  exact ⟨hfree, one_order glyph_made hfree⟩

end MasterSchema.ValueClass
