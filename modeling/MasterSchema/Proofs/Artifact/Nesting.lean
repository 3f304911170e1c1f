import MasterSchema.Proofs.Artifact.Agreement
import MasterSchema.Proofs.Text.Nesting

/-!
# How artifacts are nested

Namespaces, classes, functions, loops and argument lists are opened and closed by different lines
of an artifact. If no name, type or option has brackets, all of them are balanced.

* For each body there is one lemma that says that its lines leave what is pending as it is
  (`nestLines_valueClass`, `nestLines_declaration`, `nestLines_definition`).
* `nestLines_open` and `nestLines_close` are the inductions on the namespaces.
* `nested_of_made` says for the default rules and options that an artifact is balanced, which of its
  lines open namespaces, and that just as many lines close them behind the body.
-/

namespace MasterSchema

open Text

namespace Artifact

variable {rules : Rules} {options : ArtifactOptions} {d : DataType}

/-! ## 1. What has no brackets -/

theorem plain_of_checked {name : String} (h : nameFault? name = none) : Plain name := by
  intro c hc
  have hpart : ∀ c ∈ brackets, isIdentifierPart c = false := forall_brackets (by decide)
  exact not_mem_of_checked h (hpart c hc)

section Bodies

variable (h : ∀ c ∈ brackets, Without c options d) (ha : d.Accepted rules)

include h in
theorem neutral_text {s : String} (hs : s ∈ options.texts) : Neutral s :=
  neutral_of_plain fun c hc => (h c hc).options s hs

include h in
theorem neutral_indent : Neutral options.indent :=
  neutral_text h (by simp [ArtifactOptions.texts])

include h ha in
theorem neutral_valueClass : Neutral (options.valueClass d) :=
  (neutral_text h (by simp [ArtifactOptions.texts])).append
    (neutral_of_plain (plain_of_checked ha.name))

include h ha in
theorem neutral_repository : Neutral (options.repository d) :=
  (neutral_valueClass h ha).append (neutral_of_plain (by decide))

include h ha in
theorem neutral_field {field : ResolvedField} (hf : field ∈ d.fields) :
    Neutral field.name ∧ Neutral field.accessorName ∧ Neutral field.memberName
      ∧ Neutral field.storageType ∧ Neutral field.callType := by
  have hname := neutral_of_plain (plain_of_checked (ha.settled field hf).name)
  have hconst : Plain "const &" := by decide
  exact ⟨hname, neutral_of_plain (plain_of_checked (ha.accessors field hf)),
    (neutral_of_plain (by decide)).append hname,
    neutral_of_plain fun c hc => (h c hc).storage field hf,
    neutral_of_plain fun c hc => (h c hc).callType ha (hconst c hc) hf⟩

/-! ## 2. Bodies -/

/-- The lines of a value class between the first and the last. -/
def innerLines (options : ArtifactOptions) (d : DataType) : List String :=
  "public: // public getter"
    :: (d.fields.map (ValueClass.accessorLine options) ++ "private: // field"
      :: (d.fields.map (ValueClass.memberLine options) ++ "public: // ctor"
        :: ValueClass.constructorLine options d
          :: withSeparators "," " \x7b\x7d" (d.fields.map (ValueClass.initialiser options))))

include h ha in
theorem neutral_innerLines : ∀ line ∈ innerLines options d, Neutral line := by
  have hindent := neutral_indent h
  have hclass := neutral_valueClass h ha
  have haccessors : ∀ line ∈ d.fields.map (ValueClass.accessorLine options), Neutral line := by
    intro line hl pending
    obtain ⟨field, hf, rfl⟩ := List.mem_map.1 hl
    obtain ⟨_, haccessor, hmember, _, hcall⟩ := neutral_field h ha hf
    simp only [ValueClass.accessorLine, String.toList_append, nest_append, hindent, hcall,
      haccessor, hmember, Option.bind_some]
    rfl
  have hmembers : ∀ line ∈ d.fields.map (ValueClass.memberLine options), Neutral line := by
    intro line hl pending
    obtain ⟨field, hf, rfl⟩ := List.mem_map.1 hl
    obtain ⟨_, _, hmember, hstorage, _⟩ := neutral_field h ha hf
    simp only [ValueClass.memberLine, String.toList_append, nest_append, hindent, hstorage,
      hmember, Option.bind_some]
    rfl
  have hparameters : Neutral (joined ", " (d.fields.map ValueClass.parameter)) := by
    refine neutral_joined (neutral_of_plain (by decide)) fun member hm => ?_
    obtain ⟨field, hf, rfl⟩ := List.mem_map.1 hm
    obtain ⟨hname, _, _, _, hcall⟩ := neutral_field h ha hf
    exact (hcall.append (neutral_of_plain (by decide))).append hname
  have hconstructor : Neutral (ValueClass.constructorLine options d) := by
    intro pending
    simp only [ValueClass.constructorLine, String.toList_append, nest_append, hindent, hclass,
      Option.bind_some]
    show (nest (')' :: pending) _).bind _ = _
    rw [hparameters]
    rfl
  have hinitialisers : ∀ line ∈ withSeparators "," " \x7b\x7d"
      (d.fields.map (ValueClass.initialiser options)), Neutral line :=
    forall_withSeparators ha.fields_ne_nil fun field hf close hclose => by
      obtain ⟨hname, _, hmember, _, _⟩ := neutral_field h ha hf
      refine Neutral.append (fun pending => ?_) ?_
      · simp only [ValueClass.initialiser, String.toList_append, nest_append, hindent, hmember,
          Option.bind_some]
        show (nest (')' :: pending) _).bind _ = _
        rw [hname]
        rfl
      · rcases hclose with rfl | rfl
        · exact fun _ => rfl
        · exact fun _ => rfl
  simp only [innerLines, List.forall_mem_append, List.forall_mem_cons]
  exact ⟨neutral_of_plain (by decide), haccessors, neutral_of_plain (by decide), hmembers,
    neutral_of_plain (by decide), hconstructor, hinitialisers⟩

include h ha in
theorem nestLines_valueClass (pending : List Char) :
    nestLines pending (ValueClass.body options d) = some pending := by
  have hclass := neutral_valueClass h ha
  have hopen : nest pending ("class " ++ options.valueClass d ++ " \x7b").toList
      = some ('\x7d' :: pending) := by
    simp only [String.toList_append, nest_append, hclass]
    rfl
  have hbody : ValueClass.body options d = ("class " ++ options.valueClass d ++ " \x7b")
      :: (innerLines options d ++ ["\x7d;"]) := by
    simp [ValueClass.body, innerLines]
  rw [hbody, nestLines_cons hopen, nestLines_append (nestLines_neutral (neutral_innerLines h ha) _)]
  rfl

include h ha in
theorem nestLines_declaration (pending : List Char) :
    nestLines pending (RepositoryDeclaration.body options d) = some pending := by
  have hindent := neutral_indent h
  have hclass := neutral_valueClass h ha
  have hrepository := neutral_repository h ha
  obtain ⟨_, _, _, hkey, _⟩ := neutral_field h ha ha.primaryKey_mem
  have hbase : Neutral options.repositoryBase := neutral_text h (by simp [ArtifactOptions.texts])
  have hinstance : Neutral options.instanceBase := neutral_text h (by simp [ArtifactOptions.texts])
  simp only [nestLines, RepositoryDeclaration.body, List.foldlM_cons, String.toList_append,
    nest_append, hindent, hclass, hrepository, hkey, hbase, hinstance, Option.bind_some]
  rfl

include h ha in
theorem neutral_readField {field : ResolvedField} (hf : field ∈ d.fields) :
    Neutral (RepositoryDefinition.readField options field) := by
  obtain ⟨hname, _, _, hstorage, _⟩ := neutral_field h ha hf
  have hvalue : Neutral options.idValueType := neutral_text h (by simp [ArtifactOptions.texts])
  have hnumber : ∀ pending, nest pending "(toml_value[U\"".toList
      = some (']' :: ')' :: pending) := fun _ => rfl
  have hplain : ∀ pending, nest pending "toml_value[U\"".toList = some (']' :: pending) :=
    fun _ => rfl
  have hget : ∀ pending, nest (']' :: pending) "\"].get<".toList = some pending := fun _ => rfl
  intro pending
  unfold RepositoryDefinition.readField
  split
  · simp only [String.toList_append, nest_append, hstorage, hnumber, hname, hget, hvalue,
      Option.bind_some]
    rfl
  · simp only [String.toList_append, nest_append, hplain, hname, hget, hstorage,
      Option.bind_some]
    rfl

include h ha in
theorem nestLines_definition (pending : List Char) :
    nestLines pending (RepositoryDefinition.body options d) = some pending := by
  have hindent := neutral_indent h
  have hclass := neutral_valueClass h ha
  have hrepository := neutral_repository h ha
  have hname := neutral_of_plain (plain_of_checked ha.name)
  have hkey := neutral_readField h ha ha.primaryKey_mem
  have hsource : Neutral options.recordSourceType :=
    neutral_text h (by simp [ArtifactOptions.texts])
  have hrecord : Neutral options.recordKeyType := neutral_text h (by simp [ArtifactOptions.texts])
  have hroot : Neutral options.recordRootKey := neutral_text h (by simp [ArtifactOptions.texts])
  have harguments : ∀ pending, nestLines (')' :: ')' :: ')' :: pending)
      (withSeparators "," ")));" (d.fields.map (RepositoryDefinition.argument options)))
        = some pending := by
    intro pending
    refine nestLines_withSeparators (neutral_of_plain (by decide)) rfl
      (by simpa using ha.fields_ne_nil) fun item hi => ?_
    obtain ⟨field, hf, rfl⟩ := List.mem_map.1 hi
    exact (((hindent.append hindent).append hindent).append hindent).append
      (neutral_readField h ha hf)
  rw [RepositoryDefinition.body, List.append_assoc]
  refine (nestLines_append (show _ = some (')' :: ')' :: ')' :: '\x7d' :: '\x7d' :: pending)
    from ?_) _).trans ?_
  · simp only [nestLines, List.foldlM_cons, String.toList_append, nest_append, hindent, hclass,
      hrepository, hname, hkey, hsource, hrecord, hroot, Option.bind_some]
    rfl
  · rw [nestLines_append (harguments _)]
    simp only [nestLines, List.foldlM_cons, String.toList_append, nest_append, hindent,
      Option.bind_some]
    rfl

include h ha in
/-- **The lines of a body leave what is pending as it is.** -/
theorem nestLines_body (kind : ArtifactKind) (pending : List Char) :
    nestLines pending (body options d kind) = some pending := by
  cases kind with
  | valueClass => exact nestLines_valueClass h ha pending
  | declaration => exact nestLines_declaration h ha pending
  | definition => exact nestLines_definition h ha pending

end Bodies

/-! ## 3. Around the bodies -/

theorem nestLines_open : ∀ {names : List String}, (∀ name ∈ names, Neutral name) →
    ∀ pending, nestLines pending (names.map openLine)
      = some (List.replicate names.length '\x7d' ++ pending)
  | [], _, _ => rfl
  | name :: rest, h, pending => by
      have hname := h name List.mem_cons_self
      have hline : nest pending (openLine name).toList = some ('\x7d' :: pending) := by
        simp only [openLine, String.toList_append, nest_append, hname]
        rfl
      rw [List.map_cons, nestLines_cons hline,
        nestLines_open fun other ho => h other (List.mem_cons_of_mem name ho)]
      simp [List.replicate_succ', List.append_assoc]

theorem nestLines_close : ∀ (names : List String) (pending : List Char),
    nestLines (List.replicate names.length '\x7d' ++ pending) (names.map fun _ => "\x7d")
      = some pending
  | [], _ => rfl
  | name :: rest, pending => by
      have hline : nest (List.replicate (name :: rest).length '\x7d' ++ pending) "\x7d".toList
          = some (List.replicate rest.length '\x7d' ++ pending) := rfl
      rw [List.map_cons, nestLines_cons hline, nestLines_close rest]

section Texts

variable (h : ∀ c ∈ brackets, Without c options d) (ha : d.Accepted rules)

include h ha in
theorem neutral_provenance : Neutral (provenance options d) := by
  have hname := neutral_of_plain (plain_of_checked ha.name)
  have hsource : Neutral options.sourceName := neutral_text h (by simp [ArtifactOptions.texts])
  have htype : Neutral (if d.ns.isRoot then d.name else d.ns.toString ++ "/" ++ d.name) := by
    split
    · exact hname
    · rename_i hroot
      have hns : Neutral d.ns.toString := by
        rw [Namespace.toString, if_neg hroot]
        refine neutral_joined (neutral_of_plain (by decide)) fun segment hs => ?_
        exact neutral_of_plain fun c hc => (h c hc).segments segment hs
      exact (hns.append (neutral_of_plain (by decide))).append hname
  have hwritten : ∀ s, Neutral s →
      Neutral ("// This file is generated from " ++ options.sourceName ++ " (" ++ s ++ ")") := by
    intro s hs
    have hcomment : Neutral "// This file is generated from " := neutral_of_plain (by decide)
    have hopen : ∀ pending, nest pending " (".toList = some (')' :: pending) := fun _ => rfl
    intro pending
    simp only [String.toList_append, nest_append, hcomment, hsource, hopen, hs, Option.bind_some]
    rfl
  exact hwritten _ htype

include h ha in
theorem neutral_header {kind : ArtifactKind} : ∀ header ∈ headers options d kind,
    Neutral header := by
  have htext : ∀ s ∈ options.texts, Neutral s := fun s hs => neutral_text h hs
  have hids : ∀ header ∈ (if d.hasId then [options.idsHeader] else []), Neutral header := by
    intro header hh
    split at hh
    · rw [List.mem_singleton.1 hh]
      exact htext _ (by simp [ArtifactOptions.texts])
    · cases hh
  have hend : ∀ ending ∈ [".hpp", ".cpp"], Neutral ending := by
    simp only [List.forall_mem_cons]
    exact ⟨neutral_of_plain (by decide), neutral_of_plain (by decide), by simp⟩
  cases kind with
  | valueClass =>
    refine List.forall_mem_append.2 ⟨hids, fun header hh => ?_⟩
    obtain ⟨base, _, hbase⟩ := List.mem_filterMap.1 hh
    exact htext header (ArtifactOptions.typeHeader?_mem hbase)
  | declaration =>
    simp only [headers, List.forall_mem_append, List.forall_mem_cons]
    exact ⟨⟨htext _ (by simp [ArtifactOptions.texts]), htext _ (by simp [ArtifactOptions.texts]),
      (neutral_valueClass h ha).append (hend _ (by simp)), by simp⟩, hids⟩
  | definition =>
    simp only [headers, List.forall_mem_cons]
    exact ⟨(neutral_repository h ha).append (hend _ (by simp)),
      htext _ (by simp [ArtifactOptions.texts]), by simp⟩

include h ha in
theorem neutral_preamble {kind : ArtifactKind} : ∀ line ∈ preamble options d kind,
    Neutral line := by
  rw [preamble_eq]
  refine List.forall_mem_append.2 ⟨?_, fun line hl => ?_⟩
  · split
    · simp
    · simpa using neutral_of_plain (by decide : Plain "#pragma once")
  · obtain ⟨header, hh, rfl⟩ := List.mem_map.1 hl
    exact ((neutral_of_plain (by decide)).append (neutral_header h ha header hh)).append
      (neutral_of_plain (by decide))

include h ha in
/-- **The brackets of an artifact are balanced.** -/
theorem balanced_textOf (kind : ArtifactKind) : Balanced (textOf options d kind).toList := by
  have hblank : ∀ line ∈ [""], Neutral line := by
    simpa using neutral_of_plain (by decide : Plain "")
  have hnames : ∀ name ∈ namespaceNames options d, Neutral name := by
    intro name hn
    rcases List.mem_append.1 hn with houter | hsegment
    · exact neutral_text h (by simp [ArtifactOptions.texts, houter])
    · exact neutral_of_plain fun c hc => (h c hc).segments name hsegment
  have hbefore : ∀ line ∈ provenance options d :: preamble options d kind, Neutral line :=
    List.forall_mem_cons.2 ⟨neutral_provenance h ha, neutral_preamble h ha⟩
  have hclose := nestLines_close (namespaceNames options d) []
  rw [balanced_iff, textOf, nest_ofLines, lines]
  simp only [List.append_assoc]
  rw [nestLines_append (nestLines_neutral hbefore _), nestLines_append (nestLines_neutral hblank _),
    nestLines_append (nestLines_open hnames _), nestLines_append (nestLines_neutral hblank _),
    nestLines_append (nestLines_body h ha kind _), nestLines_append (nestLines_neutral hblank _),
    hclose]

end Texts

/-! ## 4. Lines that open and close namespaces -/

/-- Whether a line begins as one that opens a namespace. -/
def opensNamespace (line : String) : Bool :=
  "namespace ".toList.isPrefixOf line.toList

theorem opensNamespace_openLine (name : String) : opensNamespace (openLine name) = true := by
  rw [opensNamespace, List.isPrefixOf_iff_prefix, openLine, String.append_assoc,
    String.toList_append]
  exact List.prefix_append _ _

theorem opensNamespace_of_head {line : String} (h : line.toList.head? ≠ some 'n') :
    opensNamespace line = false := by
  refine Bool.eq_false_iff.2 fun hopens => h ?_
  obtain ⟨rest, hrest⟩ := List.isPrefixOf_iff_prefix.1 hopens
  rw [← hrest, List.head?_append]
  rfl

/-- **The lines that open namespaces are the ones that are written for that.** -/
theorem filter_opensNamespace (hindent : options.indent.toList.head? = some ' ')
    (hne : d.fields ≠ []) (kind : ArtifactKind) :
    (lines options d kind).filter opensNamespace = (namespaceNames options d).map openLine := by
  have hnone : ∀ l : List String, (∀ line ∈ l, line.toList.head? ≠ some 'n') →
      l.filter opensNamespace = [] := fun l h =>
    List.filter_eq_nil_iff.2 fun line hl => by simp [opensNamespace_of_head (h line hl)]
  have hbefore : (provenance options d :: preamble options d kind).filter opensNamespace = [] := by
    refine hnone _ (List.forall_mem_cons.2 ⟨?_, fun line hl => ?_⟩)
    · unfold provenance
      split <;> simp
    · rcases mem_preamble hl with rfl | ⟨header, rfl⟩
      · decide
      · simp [ValueClass.includeLine]
  have hblank : [""].filter opensNamespace = [] := hnone _ (by simp)
  have hopen : ((namespaceNames options d).map openLine).filter opensNamespace
      = (namespaceNames options d).map openLine := by
    refine List.filter_eq_self.2 fun line hl => ?_
    obtain ⟨name, _, rfl⟩ := List.mem_map.1 hl
    exact opensNamespace_openLine name
  have hbody : (body options d kind).filter opensNamespace = [] :=
    hnone _ fun line hl hhead => by
      have hline := head_body hindent hne kind line hl
      rw [hhead] at hline
      exact absurd hline (by decide)
  have hclose : ((namespaceNames options d).map fun _ => "\x7d").filter opensNamespace = [] :=
    hnone _ fun line hl => by
      obtain ⟨_, _, rfl⟩ := List.mem_map.1 hl
      decide
  simp only [lines, List.filter_append, hbefore, hblank, hopen, hbody, hclose, List.nil_append,
    List.append_nil]

end Artifact

/-! ## 5. All of it -/

/-- How an artifact is nested, from its text. -/
structure NestedText (d : DataType) (kind : ArtifactKind) (text : String) : Prop where
  balanced : Balanced text.toList
  /-- Every line is ended by a line feed. -/
  lines : ofLines (linesOf text) = text
  /-- The namespaces are those of the options and then those of the data type. -/
  opened : (linesOf text).filter Artifact.opensNamespace
    = ("kanji" :: "md" :: d.ns.segments).map fun name => "namespace " ++ name ++ " \x7b"
  /-- Behind the body and a blank line there is one closing line for each of them. -/
  closed : ∃ front, linesOf text = front ++ (Artifact.body {} d kind ++ ""
    :: List.replicate ("kanji" :: "md" :: d.ns.segments).length "\x7d")

/-- **An artifact is well nested**, under the default rules and options: its brackets are balanced,
its namespaces are opened in order, and as many are closed at its end, behind the body. -/
theorem nested_of_made {d : DataType} {name : String} {ns : Namespace}
    {tokens : List (String × String)} (hmake : DataType.make {} name ns tokens = .ok d)
    (hs : d.Spelled) (kind : ArtifactKind) :
    NestedText d kind (Artifact.generate {} d kind).text := by
  have ha := (DataType.make_accepted hmake).1
  have hwithout : ∀ c ∈ brackets, Artifact.Without c {} d := by
    have htype : ∀ c ∈ brackets, isTypeChar c = false := forall_brackets (by decide)
    have htexts : ∀ c ∈ brackets, ∀ s ∈ ({} : ArtifactOptions).texts, c ∉ s.toList :=
      forall_brackets (by decide +kernel)
    exact fun c hc => Artifact.without_default ha hs (htype c hc) (htexts c hc)
  have hlines : linesOf (Artifact.generate {} d kind).text = Artifact.lines {} d kind :=
    linesAt_eq ha hs kind
  constructor
  case balanced => exact Artifact.balanced_textOf hwithout ha kind
  case lines =>
    rw [hlines]
    rfl
  case opened =>
    rw [hlines, Artifact.filter_opensNamespace (by decide) ha.fields_ne_nil]
    rfl
  case closed =>
    refine ⟨Artifact.prologue {} d kind, ?_⟩
    rw [hlines, Artifact.lines_eq, List.map_const']
    rfl

theorem nested_glyph : ValueClass.glyph.Spelled
    ∧ ∀ kind, NestedText ValueClass.glyph kind
      (Artifact.generate {} ValueClass.glyph kind).text := by
  have hs : ValueClass.glyph.Spelled := ⟨by decide, by decide⟩
  exact ⟨hs, fun kind => nested_of_made ValueClass.glyph_made hs kind⟩

end MasterSchema
