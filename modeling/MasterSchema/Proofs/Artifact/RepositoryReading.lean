import MasterSchema.Proofs.Artifact.Lines

/-!
# Reading a repository

The declaration and the definition of a repository are read back from their lines.

* `headersOf` are the headers that a text includes, `definedClass?` is the class it defines;
* `Declaration` is what the declaration says: the repository, the type of its keys, the class of
  its values;
* `Definition` is what `initialize` does with a record: how it reads the key, which class it makes
  and how it reads the arguments, each of them as a `RecordRead`.
-/

namespace MasterSchema

open Text

variable {rules : Rules} {options : ArtifactOptions} {d : DataType}

namespace Artifact

/-! ## 1. Headers -/

/-- The header that a line includes. -/
def header? (line : String) : Option String :=
  (stripped? "#include \"" "\"" line).map String.ofList

def headersOf (lines : List String) : List String :=
  lines.filterMap header?

/-- The headers that are written into an artifact, in order. -/
def headers (options : ArtifactOptions) (d : DataType) : ArtifactKind → List String
  | .valueClass => ValueClass.headers options d
  | .declaration =>
    [options.repositoryHeader, options.instanceHeader, fileName options d .valueClass]
      ++ if d.hasId then [options.idsHeader] else []
  | .definition => [fileName options d .declaration, options.recordSourceHeader]

theorem header?_of_head {line : String} (h : line.toList.head? ≠ some '#') :
    header? line = none := by
  rw [header?, stripped?_of_head (by decide) h]
  rfl

theorem header?_includeLine (header : String) :
    header? (ValueClass.includeLine header) = some header := by
  have hline : (ValueClass.includeLine header).toList
      = "#include \"".toList ++ (header.toList ++ "\"".toList) := by
    simp [ValueClass.includeLine]
  rw [header?, stripped?_of_eq hline, Option.map_some, String.ofList_toList]

theorem filterMap_includeLine (written : List String) :
    (written.map ValueClass.includeLine).filterMap header? = written := by
  induction written with
  | nil => rfl
  | cons header rest ih =>
    rw [List.map_cons, List.filterMap_cons_some (header?_includeLine header), ih]

/-- A preamble includes the headers; a header file has a guard in front of them. -/
theorem preamble_eq (options : ArtifactOptions) (d : DataType) (kind : ArtifactKind) :
    preamble options d kind = (if kind = .definition then [] else ["#pragma once"])
      ++ (headers options d kind).map ValueClass.includeLine := by
  cases kind with
  | valueClass => rfl
  | declaration =>
    by_cases hid : d.hasId <;>
      simp [preamble, RepositoryDeclaration.preamble, headers, fileName, hid]
  | definition => rfl

theorem headersOf_preamble (kind : ArtifactKind) :
    (preamble options d kind).filterMap header? = headers options d kind := by
  have hpragma : header? "#pragma once" = none := by decide +kernel
  rw [preamble_eq, List.filterMap_append, filterMap_includeLine]
  split <;> simp [hpragma]

/-- What a line of a body begins with: a word, the indentation or a brace. -/
def bodyHeads : List (Option Char) := [some 'c', some 'p', some 'v', some ' ', some '\x7d']

theorem head_body (hindent : options.indent.toList.head? = some ' ') (hne : d.fields ≠ [])
    (kind : ArtifactKind) : ∀ line ∈ body options d kind, line.toList.head? ∈ bodyHeads := by
  have hindented : ∀ rest : String, (options.indent ++ rest).toList.head? ∈ bodyHeads :=
    fun rest => by simp [bodyHeads, List.head?_append, hindent]
  have hitems : ∀ {item : ResolvedField → String},
      (∀ field, (item field).toList.head? = some ' ') →
      ∀ line ∈ d.fields.map item, line.toList.head? ∈ bodyHeads := by
    intro item hitem line hl
    obtain ⟨field, _, rfl⟩ := List.mem_map.1 hl
    rw [hitem field]
    decide
  have hlist : ∀ {item : ResolvedField → String} {separator closing : String},
      (∀ field, (item field).toList.head? = some ' ') →
      ∀ line ∈ withSeparators separator closing (d.fields.map item),
        line.toList.head? ∈ bodyHeads := by
    intro item separator closing hitem
    refine forall_withSeparators hne fun field _ close _ => ?_
    simp [bodyHeads, List.head?_append, hitem field]
  cases kind with
  | valueClass =>
    simp only [body, ValueClass.body, List.forall_mem_append, List.forall_mem_cons]
    refine ⟨⟨⟨⟨⟨⟨⟨?_, by decide, by simp⟩, hitems fun field => ?_⟩, by decide, by simp⟩,
      hitems fun field => ?_⟩, by decide, ?_, by simp⟩, hlist fun field => ?_⟩, by decide, by simp⟩
    · simp [bodyHeads]
    · simp [ValueClass.accessorLine, List.head?_append, hindent]
    · simp [ValueClass.memberLine, List.head?_append, hindent]
    · simp only [ValueClass.constructorLine, String.append_assoc]
      exact hindented _
    · simp [ValueClass.initialiser, List.head?_append, hindent]
  | declaration =>
    simp only [body, RepositoryDeclaration.body, List.forall_mem_cons, String.append_assoc]
    exact ⟨by simp [bodyHeads], hindented _, hindented _, by decide, hindented _, by decide,
      hindented _, by decide, by simp⟩
  | definition =>
    simp only [body, RepositoryDefinition.body, List.forall_mem_append, List.forall_mem_cons,
      String.append_assoc]
    exact ⟨⟨⟨by simp [bodyHeads], hindented _, hindented _, hindented _, hindented _, hindented _,
      hindented _, hindented _, hindented _, by simp⟩, hlist fun field => by
        simp [RepositoryDefinition.argument, List.head?_append, hindent]⟩,
      hindented _, by decide, by simp⟩

/-- **The headers that an artifact includes are read back.** -/
theorem headersOf_lines (hindent : options.indent.toList.head? = some ' ') (hne : d.fields ≠ [])
    (kind : ArtifactKind) : headersOf (lines options d kind) = headers options d kind := by
  have hnone : ∀ l : List String, (∀ line ∈ l, line.toList.head? ≠ some '#') →
      l.filterMap header? = [] := fun l h =>
    List.filterMap_eq_nil_iff.2 fun line hl => header?_of_head (h line hl)
  have hprologue : (prologue options d kind).filterMap header? = headers options d kind := by
    have hprovenance : header? (provenance options d) = none := header?_of_head (by
      unfold provenance
      split <;> simp)
    have hblank : header? "" = none := by decide
    have hopen : ((namespaceNames options d).map openLine).filterMap header? = [] :=
      hnone _ fun line hl => by
        obtain ⟨name, _, rfl⟩ := List.mem_map.1 hl
        simp [openLine]
    simp [prologue, hprovenance, hblank, hopen, headersOf_preamble]
  have hbody : (body options d kind).filterMap header? = [] :=
    hnone _ fun line hl hhead => by
      have hline := head_body hindent hne kind line hl
      rw [hhead] at hline
      exact absurd hline (by decide)
  have hrest : ("" :: (namespaceNames options d).map fun _ => "\x7d").filterMap header? = [] :=
    hnone _ fun line hl => by
      rcases List.mem_cons.1 hl with rfl | hl
      · decide
      · obtain ⟨_, _, rfl⟩ := List.mem_map.1 hl
        decide
  rw [headersOf, lines_eq, List.filterMap_append, List.filterMap_append, hprologue, hbody, hrest,
    List.nil_append, List.append_nil]

/-! ## 2. Classes -/

/-- The class that a line begins to define. -/
def className? (line : String) : Option String :=
  ((stripped? "class " " \x7b" line).or (stripped? "class " " :" line)).map String.ofList

/-- The first class that a text defines. -/
def definedClass? (lines : List String) : Option String :=
  lines.findSome? className?

theorem className?_of_head {line : String} (h : line.toList.head? ≠ some 'c') :
    className? line = none := by
  rw [className?, stripped?_of_head (by decide) h, stripped?_of_head (by decide) h]
  rfl

theorem definedClass_of_body {kind : ArtifactKind} (line : String) {name : String}
    {rest : List String} (hbody : body options d kind = line :: rest)
    (hline : className? line = some name) : definedClass? (lines options d kind) = some name := by
  rw [definedClass?, lines_eq, hbody, List.cons_append]
  exact findSome?_append className?
    (fun other ho => className?_of_head (head_prologue_ne ho (by decide))) hline _

theorem definedClass_valueClass :
    definedClass? (lines options d .valueClass) = some (options.valueClass d) := by
  refine definedClass_of_body ("class " ++ options.valueClass d ++ " \x7b") rfl ?_
  have hline : ("class " ++ options.valueClass d ++ " \x7b").toList
      = "class ".toList ++ ((options.valueClass d).toList ++ " \x7b".toList) := by
    simp
  rw [className?, stripped?_of_eq hline, Option.some_or, Option.map_some, String.ofList_toList]

theorem definedClass_declaration :
    definedClass? (lines options d .declaration) = some (options.repository d) := by
  refine definedClass_of_body ("class " ++ options.repository d ++ " :") rfl ?_
  have hline : ("class " ++ options.repository d ++ " :").toList
      = "class ".toList ++ ((options.repository d).toList ++ " :".toList) := by
    simp
  have hlast : ("class " ++ options.repository d ++ " :").toList.getLast? ≠ some '\x7b' := by
    rw [getLast?_append (by decide)]
    decide
  rw [className?, stripped?_of_last (by decide) hlast, stripped?_of_eq hline, Option.none_or,
    Option.map_some, String.ofList_toList]

end Artifact

open Artifact

/-! ## 3. The declaration -/

/-- What the declaration of a repository says. -/
structure Declaration where
  headers : List String
  repository : String
  /-- The type of the keys and the class of the values. -/
  key : String
  value : String
  /-- The class that is reached through the instance base. -/
  registered : String
  deriving DecidableEq, Repr

namespace Declaration

/-- The arguments of the class template that a line names as a base. -/
def baseArguments? (indent closing line : String) : Option (List Char) := do
  let base ← stripped? (indent ++ "public ") closing line
  let (_, arguments) ← cutFirst '<' base
  some arguments

def ofLines? (indent : String) (lines : List String) : Option Declaration := do
  let repository ← definedClass? lines
  let arguments ← lines.findSome? (baseArguments? indent ">,")
  let (key, rest) ← cutFirst ',' arguments
  let value ← rest.dropPrefix? [' ']
  let registered ← lines.findSome? (baseArguments? indent "> \x7b")
  some ⟨headersOf lines, repository, String.ofList key, String.ofList value,
    String.ofList registered⟩

theorem baseArguments?_of_head {indent closing line : String}
    (hindent : indent.toList.head? = some ' ') (h : line.toList.head? ≠ some ' ') :
    baseArguments? indent closing line = none := by
  have hopening : (indent ++ "public ").toList.head? = some ' ' := by
    simp [List.head?_append, hindent]
  rw [baseArguments?, stripped?_of_head hopening h]
  rfl

theorem baseArguments?_written {indent base arguments closing : String}
    (hbase : '<' ∉ base.toList) :
    baseArguments? indent closing (indent ++ "public " ++ base ++ "<" ++ arguments ++ closing)
      = some arguments.toList := by
  have hline : (indent ++ "public " ++ base ++ "<" ++ arguments ++ closing).toList
      = (indent ++ "public ").toList
        ++ ((base.toList ++ '<' :: arguments.toList) ++ closing.toList) := by
    simp
  simp only [baseArguments?, stripped?_of_eq hline, cutFirst_append hbase, Option.bind_eq_bind,
    Option.bind_some]

/-- **The declaration of a repository is read back.** -/
theorem read (hindent : options.indent.toList.head? = some ' ') (hne : d.fields ≠ [])
    (hrepository : '<' ∉ options.repositoryBase.toList)
    (hinstance : '<' ∉ options.instanceBase.toList)
    (hkey : ',' ∉ d.primaryKey.storageType.toList) :
    ofLines? options.indent (lines options d .declaration)
      = some ⟨Artifact.headers options d .declaration, options.repository d, d.primaryKey.storageType,
        options.valueClass d, options.repository d⟩ := by
  have hprologue : ∀ {closing : String}, ∀ line ∈ prologue options d .declaration
      ++ ["class " ++ options.repository d ++ " :"],
      baseArguments? options.indent closing line = none := by
    intro closing line hl
    refine baseArguments?_of_head hindent ?_
    rcases List.mem_append.1 hl with hl | hl
    · exact head_prologue_ne hl (by decide)
    · rw [List.mem_singleton.1 hl]
      simp
  -- the line of the repository base and the line of the instance base
  let base := options.indent ++ "public " ++ options.repositoryBase ++ "<"
    ++ (d.primaryKey.storageType ++ ", " ++ options.valueClass d) ++ ">,"
  let entry := options.indent ++ "public " ++ options.instanceBase ++ "<"
    ++ options.repository d ++ "> \x7b"
  obtain ⟨rest, hlines⟩ : ∃ rest, lines options d .declaration
      = (prologue options d .declaration ++ ["class " ++ options.repository d ++ " :"])
        ++ base :: entry :: rest := by
    rw [lines_eq]
    simp only [body, RepositoryDeclaration.body, List.cons_append, List.append_assoc,
      List.nil_append, String.append_assoc, base, entry]
    exact ⟨_, rfl⟩
  have hbase : (lines options d .declaration).findSome? (baseArguments? options.indent ">,")
      = some (d.primaryKey.storageType ++ ", " ++ options.valueClass d).toList := by
    rw [hlines]
    exact findSome?_append (baseArguments? options.indent ">,") hprologue
      (baseArguments?_written hrepository) _
  have hentry : (lines options d .declaration).findSome? (baseArguments? options.indent "> \x7b")
      = some (options.repository d).toList := by
    rw [hlines, List.append_cons]
    refine findSome?_append (baseArguments? options.indent "> \x7b") (fun line hl => ?_)
      (baseArguments?_written hinstance) _
    rcases List.mem_append.1 hl with hl | hl
    · exact hprologue line hl
    · have hlast : base.toList.getLast? ≠ some '\x7b' := by
        rw [getLast?_append (by decide)]
        decide
      rw [List.mem_singleton.1 hl, baseArguments?, stripped?_of_last (by decide) hlast]
      rfl
  have harguments : (d.primaryKey.storageType ++ ", " ++ options.valueClass d).toList
      = d.primaryKey.storageType.toList ++ ',' :: ([' '] ++ (options.valueClass d).toList) := by
    simp
  simp only [ofLines?, definedClass_declaration, hbase, hentry, harguments, cutFirst_append hkey,
    dropPrefix?_append, headersOf_lines hindent hne, Option.bind_eq_bind, Option.bind_some,
    String.ofList_toList]

end Declaration

/-! ## 4. Reading a record -/

/-- An expression that reads a record: under a key, as a raw type, and what that is made into. -/
structure RecordRead where
  key : String
  raw : String
  made : Option String
  deriving DecidableEq, Repr

namespace RecordRead

/-- The type of the expression. -/
def yields (read : RecordRead) : String :=
  read.made.getD read.raw

def plain? (text : List Char) : Option RecordRead := do
  let rest ← text.dropPrefix? "toml_value[U\"".toList
  let (key, rest) ← cutFirst '"' rest
  let rest ← rest.dropPrefix? "].get<".toList
  let raw ← rest.dropSuffix? ">()".toList
  some ⟨String.ofList key, String.ofList raw, none⟩

def converted? (text : List Char) : Option RecordRead := do
  let (made, rest) ← cutFirst '(' text
  let inner ← rest.dropSuffix? [')']
  let read ← plain? inner
  some { read with made := some (String.ofList made) }

def ofText? (text : List Char) : Option RecordRead :=
  (converted? text).or (plain? text)

/-- How a field is read. -/
def ofField (options : ArtifactOptions) (field : ResolvedField) : RecordRead :=
  if field.isId then ⟨field.name, options.idValueType, some field.storageType⟩
  else ⟨field.name, field.storageType, none⟩

theorem ofField_key (field : ResolvedField) : (ofField options field).key = field.name := by
  unfold ofField
  split <;> rfl

/-- **A field is read as what it is stored as.** -/
theorem ofField_yields (field : ResolvedField) :
    (ofField options field).yields = field.storageType := by
  unfold ofField
  split <;> rfl

theorem plain?_written {key raw : List Char} (hkey : '"' ∉ key) :
    plain? ("toml_value[U\"".toList ++ (key ++ '"' :: ("].get<".toList ++ (raw ++ ">()".toList))))
      = some ⟨String.ofList key, String.ofList raw, none⟩ := by
  simp only [plain?, dropPrefix?_append, cutFirst_append hkey, dropSuffix?_append,
    Option.bind_eq_bind, Option.bind_some]

theorem read_readField {field : ResolvedField} (hname : isIdentifier field.name = true)
    (hstorage : '(' ∉ field.storageType.toList) :
    ofText? (RepositoryDefinition.readField options field).toList
      = some (ofField options field) := by
  have hquote : '"' ∉ field.name.toList := not_mem_of_isIdentifier hname (by decide)
  have hparen : '(' ∉ field.name.toList := not_mem_of_isIdentifier hname (by decide)
  unfold RepositoryDefinition.readField ofField
  split
  · have htext : (field.storageType ++ "(toml_value[U\"" ++ field.name ++ "\"].get<"
        ++ options.idValueType ++ ">())").toList
        = field.storageType.toList ++ '(' :: (("toml_value[U\"".toList ++ (field.name.toList
          ++ '"' :: ("].get<".toList ++ (options.idValueType.toList ++ ">()".toList)))) ++ [')']) := by
      simp
    simp only [ofText?, converted?, htext, cutFirst_append hstorage, dropSuffix?_append,
      plain?_written hquote, Option.bind_eq_bind, Option.bind_some, Option.some_or,
      String.ofList_toList]
  · have htext : ("toml_value[U\"" ++ field.name ++ "\"].get<" ++ field.storageType
        ++ ">()").toList
        = "toml_value[U\"".toList ++ (field.name.toList
          ++ '"' :: ("].get<".toList ++ (field.storageType.toList ++ ">()".toList))) := by
      simp
    have hcall : ("toml_value[U\"" ++ field.name ++ "\"].get<" ++ field.storageType
        ++ ">()").toList
        = ("toml_value[U\"" ++ field.name ++ "\"].get<" ++ field.storageType ++ ">").toList
          ++ '(' :: ([] ++ [')']) := by
      simp
    have hfront : '(' ∉ ("toml_value[U\"" ++ field.name ++ "\"].get<" ++ field.storageType
        ++ ">").toList := by
      simp [hparen, hstorage]
    -- what stands between the parentheses of a plain read is empty, and that is no read
    have hnone : converted? ("toml_value[U\"" ++ field.name ++ "\"].get<" ++ field.storageType
        ++ ">()").toList = none := by
      have hempty : plain? [] = none := by decide
      rw [converted?, hcall, cutFirst_append hfront]
      simp only [Option.bind_eq_bind, Option.bind_some, dropSuffix?_append, hempty,
        Option.bind_none]
    rw [ofText?, hnone, Option.none_or, htext, plain?_written hquote, String.ofList_toList,
      String.ofList_toList]

end RecordRead

/-! ## 5. The definition -/

/-- What `initialize` does: with which class it stands, how it reads the key of a record, and which
class it makes with which arguments. -/
structure Definition where
  headers : List String
  repository : String
  key : RecordRead
  value : String
  arguments : List RecordRead
  deriving DecidableEq, Repr

namespace Definition

/-- The class whose `initialize` a line begins to define. -/
def initialised? (line : String) : Option String :=
  (stripped? "void " "::initialize() \x7b" line).map String.ofList

def key? (indent line : String) : Option RecordRead := do
  let text ← stripped? (indent ++ indent ++ indent) "," line
  RecordRead.ofText? text

def value? (indent line : String) : Option String :=
  (stripped? (indent ++ indent ++ indent ++ "std::make_unique<") ">(" line).map String.ofList

def argument? (indent line : String) : Option RecordRead := do
  let text ← (stripped? (indent ++ indent ++ indent ++ indent) "," line).or
    (stripped? (indent ++ indent ++ indent ++ indent) ")));" line)
  RecordRead.ofText? text

/-- The line behind which a record is read. -/
def insertLine (indent : String) : String :=
  indent ++ indent ++ "m_data.insert(std::make_pair("

def ofLines? (indent : String) (lines : List String) : Option Definition := do
  let repository ← lines.findSome? initialised?
  let (_, rest) ← cutFirst (insertLine indent) lines
  let keyLine ← rest.head?
  let valueLine ← rest.tail.head?
  let (argumentLines, _) ← cutFirst (indent ++ "\x7d") rest.tail.tail
  let key ← key? indent keyLine
  let value ← value? indent valueLine
  let arguments ← argumentLines.mapM (argument? indent)
  some ⟨headersOf lines, repository, key, value, arguments⟩

theorem initialised?_written (repository : String) :
    initialised? ("void " ++ repository ++ "::initialize() \x7b") = some repository := by
  have hline : ("void " ++ repository ++ "::initialize() \x7b").toList
      = "void ".toList ++ (repository.toList ++ "::initialize() \x7b".toList) := by
    simp
  rw [initialised?, stripped?_of_eq hline, Option.map_some, String.ofList_toList]

section Fields

variable {field : ResolvedField} (hname : isIdentifier field.name = true)
  (hstorage : '(' ∉ field.storageType.toList)

include hname hstorage

theorem key?_written : key? options.indent (options.indent ++ options.indent ++ options.indent
    ++ RepositoryDefinition.readField options field ++ ",")
      = some (RecordRead.ofField options field) := by
  have hline : (options.indent ++ options.indent ++ options.indent
      ++ RepositoryDefinition.readField options field ++ ",").toList
      = (options.indent ++ options.indent ++ options.indent).toList
        ++ ((RepositoryDefinition.readField options field).toList ++ ",".toList) := by
    simp
  simp only [key?, stripped?_of_eq hline, RecordRead.read_readField hname hstorage,
    Option.bind_eq_bind, Option.bind_some]

theorem argument?_written {close : String} (hclose : close = "," ∨ close = ")));") :
    argument? options.indent (RepositoryDefinition.argument options field ++ close)
      = some (RecordRead.ofField options field) := by
  have hline : (RepositoryDefinition.argument options field ++ close).toList
      = (options.indent ++ options.indent ++ options.indent ++ options.indent).toList
        ++ ((RepositoryDefinition.readField options field).toList ++ close.toList) := by
    simp [RepositoryDefinition.argument]
  have hread : RecordRead.ofText? (RepositoryDefinition.readField options field).toList
      = some (RecordRead.ofField options field) := RecordRead.read_readField hname hstorage
  rcases hclose with rfl | rfl
  · simp only [argument?, stripped?_of_eq hline, Option.some_or, hread, Option.bind_eq_bind,
      Option.bind_some]
  · have hlast : (RepositoryDefinition.argument options field ++ ")));").toList.getLast?
        ≠ some ',' := by
      rw [getLast?_append (by decide)]
      decide
    have hcomma : stripped? (options.indent ++ options.indent ++ options.indent ++ options.indent)
        "," (RepositoryDefinition.argument options field ++ ")));") = none :=
      stripped?_of_last (by decide) hlast
    simp only [argument?, hcomma, stripped?_of_eq hline, Option.none_or, hread,
      Option.bind_eq_bind, Option.bind_some]

end Fields

theorem value?_written (indent name : String) :
    value? indent (indent ++ indent ++ indent ++ "std::make_unique<" ++ name ++ ">(")
      = some name := by
  have hline : (indent ++ indent ++ indent ++ "std::make_unique<" ++ name ++ ">(").toList
      = (indent ++ indent ++ indent ++ "std::make_unique<").toList
        ++ (name.toList ++ ">(".toList) := by
    simp
  rw [value?, stripped?_of_eq hline, Option.map_some, String.ofList_toList]

/-- The lines of a definition before a record is read. -/
def opening (options : ArtifactOptions) (d : DataType) : List String :=
  prologue options d .definition
    ++ ("void " ++ options.repository d ++ "::initialize() \x7b")
    :: [options.indent ++ "const " ++ options.recordSourceType ++ " toml(U\"" ++ d.name ++ "\");",
      options.indent ++ "const " ++ options.recordKeyType ++ " key(U\"" ++ options.recordRootKey
        ++ "\");",
      options.indent ++ "s3d::TOMLTableView table = toml[key].tableView();",
      options.indent ++ "for (const s3d::TOMLTableMember& table_member : table) \x7b",
      options.indent ++ options.indent ++ "const auto& toml_value = table_member.value;"]

theorem lines_eq_opening (options : ArtifactOptions) (d : DataType) : ∃ back, lines options d .definition
    = opening options d ++ insertLine options.indent
      :: (options.indent ++ options.indent ++ options.indent
        ++ RepositoryDefinition.readField options d.primaryKey ++ ",")
      :: (options.indent ++ options.indent ++ options.indent ++ "std::make_unique<"
        ++ options.valueClass d ++ ">(")
      :: (withSeparators "," ")));" (d.fields.map (RepositoryDefinition.argument options))
        ++ (options.indent ++ "\x7d") :: back) := by
  refine ⟨"\x7d" :: "" :: (namespaceNames options d).map fun _ => "\x7d", ?_⟩
  simp [lines_eq, body, RepositoryDefinition.body, opening, insertLine]

theorem initialised?_prologue :
    ∀ line ∈ prologue options d .definition, initialised? line = none := by
  intro line hl
  have hhead : line.toList.head? ≠ some 'v' := head_prologue_ne hl (by decide)
  rw [initialised?, stripped?_of_head (by decide) hhead]
  rfl

theorem initialised?_opening (back : List String) :
    (opening options d ++ back).findSome? initialised? = some (options.repository d) := by
  rw [opening, List.append_assoc]
  exact findSome?_append initialised? initialised?_prologue
    (initialised?_written (options.repository d)) _

/-- No line before a record is read ends as the line behind which it is read does. -/
theorem insertLine_not_mem (hindent : options.indent.toList.head? = some ' ') :
    insertLine options.indent ∉ opening options d := by
  intro hm
  rcases List.mem_append.1 hm with hm | hm
  · have hhead : (insertLine options.indent).toList.head? = some ' ' := by
      simp [insertLine, List.head?_append, hindent]
    exact head_prologue_ne hm (by decide) hhead
  · have hlast : (insertLine options.indent).toList.getLast? = some '(' :=
      getLast?_append (by decide)
    have hne : ∀ {front close : String}, close ≠ "" → close.toList.getLast? ≠ some '(' →
        insertLine options.indent ≠ front ++ close := fun hclose h =>
      (ne_of_last hclose (by rw [hlast]; exact h.symm)).symm
    simp only [List.mem_cons, List.not_mem_nil, or_false] at hm
    rcases hm with hm | hm | hm | hm | hm | hm
    all_goals exact hne (by decide) (by decide) hm

/-- **The definition of a repository is read back.** -/
theorem read (hindent : options.indent.toList.head? = some ' ') (hne : d.fields ≠ [])
    (hname : ∀ field ∈ d.fields, isIdentifier field.name = true)
    (hstorage : ∀ field ∈ d.fields, '(' ∉ field.storageType.toList)
    (hkey : d.primaryKey ∈ d.fields) :
    ofLines? options.indent (lines options d .definition)
      = some ⟨Artifact.headers options d .definition, options.repository d,
        RecordRead.ofField options d.primaryKey, options.valueClass d,
        d.fields.map (RecordRead.ofField options)⟩ := by
  have hend : options.indent ++ "\x7d"
      ∉ withSeparators "," ")));" (d.fields.map (RepositoryDefinition.argument options)) := by
    have hlast : (options.indent ++ "\x7d").toList.getLast? = some '\x7d' :=
      getLast?_append (by decide)
    have hall : ∀ line ∈ withSeparators "," ")));"
        (d.fields.map (RepositoryDefinition.argument options)), line ≠ options.indent ++ "\x7d" :=
      forall_withSeparators hne fun field _ close hclose => by
        rcases hclose with rfl | rfl
        · exact ne_of_last (by decide) (by rw [hlast]; decide)
        · exact ne_of_last (by decide) (by rw [hlast]; decide)
    exact fun hm => hall _ hm rfl
  have harguments : (withSeparators "," ")));"
      (d.fields.map (RepositoryDefinition.argument options))).mapM (argument? options.indent)
        = some (d.fields.map (RecordRead.ofField options)) :=
    mapM_eq_some (map_withSeparators hne fun field hf close hclose =>
      argument?_written (hname field hf) (hstorage field hf) hclose)
  have hheaders := headersOf_lines hindent hne .definition
  obtain ⟨back, hlines⟩ := lines_eq_opening options d
  rw [hlines] at hheaders ⊢
  simp only [ofLines?, initialised?_opening, cutFirst_append (insertLine_not_mem hindent),
    cutFirst_append hend, key?_written (hname d.primaryKey hkey) (hstorage d.primaryKey hkey),
    value?_written, harguments, hheaders, Option.bind_eq_bind, Option.bind_some, List.head?_cons,
    List.tail_cons]

end Definition

end MasterSchema
