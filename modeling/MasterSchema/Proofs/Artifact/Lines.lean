import MasterSchema.Artifact.Basic
import MasterSchema.Proofs.DataType.Accepted
import MasterSchema.Proofs.Text.Cutting

/-!
# The lines of an artifact

An artifact is made of lines and written as one text. The text gives the lines back if nothing that
is written into them has a line feed (`linesOf_textOf`). Names are identifiers and have none; what
remains are the strings of the options, the storage types and the segments of the namespace
(`Without`).
-/

namespace MasterSchema

/-! ## 1. What is written into artifacts -/

/-- Every string of the options. -/
def ArtifactOptions.texts (options : ArtifactOptions) : List String :=
  [options.sourceName, options.indent, options.classPrefix, options.idsHeader,
    options.idValueType, options.repositoryHeader, options.repositoryBase, options.instanceHeader,
    options.instanceBase, options.recordSourceHeader, options.recordSourceType,
    options.recordKeyType, options.recordRootKey]
    ++ options.namespaces ++ options.typeHeaders.flatMap fun entry => [entry.1, entry.2]

theorem ArtifactOptions.typeHeader?_mem {options : ArtifactOptions} {base header : String}
    (h : options.typeHeader? base = some header) : header ∈ options.texts := by
  obtain ⟨entry, hentry, rfl⟩ := Option.map_eq_some_iff.1 h
  have hm : entry ∈ options.typeHeaders := List.mem_of_find?_eq_some hentry
  exact List.mem_append_right _ (List.mem_flatMap.2 ⟨entry, hm, by simp⟩)

namespace Artifact

/-- A character is in no string of the options, in no storage type and in no segment of the
namespace. -/
structure Without (c : Char) (options : ArtifactOptions) (d : DataType) : Prop where
  options : ∀ s ∈ options.texts, c ∉ s.toList
  storage : ∀ field ∈ d.fields, c ∉ field.storageType.toList
  segments : ∀ segment ∈ d.ns.segments, c ∉ segment.toList

variable {rules : Rules} {options : ArtifactOptions} {d : DataType} {c : Char}

/-- A call type is the storage type, or it has `const` and a reference around it. -/
theorem Without.callType (h : Without c options d) (ha : d.Accepted rules)
    (hc : c ∉ "const &".toList) {field : ResolvedField} (hf : field ∈ d.fields) :
    c ∉ field.callType.toList := by
  have hstorage := h.storage field hf
  rcases (ha.settled field hf).call with hcall | hcall
  · rwa [hcall]
  · rw [hcall]
    simpa [hstorage] using hc

/-! ## 2. What stands around the body -/

/-- The lines of an artifact before its body. -/
def prologue (options : ArtifactOptions) (d : DataType) (kind : ArtifactKind) : List String :=
  provenance options d :: preamble options d kind
    ++ [""] ++ (namespaceNames options d).map openLine ++ [""]

theorem lines_eq (options : ArtifactOptions) (d : DataType) (kind : ArtifactKind) :
    lines options d kind = prologue options d kind
      ++ (body options d kind ++ "" :: (namespaceNames options d).map fun _ => "\x7d") := by
  simp [lines, prologue]

theorem not_mem_of_checked {name : String} (h : nameFault? name = none)
    (hpart : isIdentifierPart c = false) : c ∉ name.toList :=
  not_mem_of_isIdentifier (isIdentifier_of_nameFault? h) hpart

/-- Whatever is written before a body beyond names, storage types and options. -/
def prologueText : String :=
  "// This file is generated from ()root#pragma once#include \".hpp\"Repositorynamespace \x7b"

section Prologue

variable (h : Without c options d) (ha : d.Accepted rules) (hpart : isIdentifierPart c = false)
  (hc : c ∉ prologueText.toList)

include h ha hpart hc

theorem not_mem_provenance : c ∉ (provenance options d).toList := by
  have hsource : c ∉ options.sourceName.toList := h.options _ (by simp [ArtifactOptions.texts])
  have hname := not_mem_of_checked ha.name hpart
  simp [prologueText] at hc
  have hns : c ∉ d.ns.toString.toList := by
    unfold Namespace.toString
    split
    · simp [hc]
    · exact Text.not_mem_joined (by simp [hc]) h.segments
  unfold provenance
  split <;> simp [hsource, hname, hns, hc]

theorem not_mem_preamble (kind : ArtifactKind) :
    ∀ line ∈ preamble options d kind, c ∉ line.toList := by
  have htexts := h.options
  have hname := not_mem_of_checked ha.name hpart
  simp [prologueText] at hc
  have hinclude : ∀ {header : String}, c ∉ header.toList →
      c ∉ (ValueClass.includeLine header).toList := fun hheader => by
    simp [ValueClass.includeLine, hheader, hc]
  cases kind with
  | valueClass =>
    intro line hl
    rcases List.mem_cons.1 hl with rfl | hl
    · simp [hc]
    · obtain ⟨header, hheader, rfl⟩ := List.mem_map.1 hl
      refine hinclude (htexts header ?_)
      rcases List.mem_append.1 hheader with hids | hconfigured
      · split at hids
        · simp [List.mem_singleton.1 hids, ArtifactOptions.texts]
        · cases hids
      · obtain ⟨base, _, hb⟩ := List.mem_filterMap.1 hconfigured
        exact ArtifactOptions.typeHeader?_mem hb
  | declaration =>
    simp only [ArtifactOptions.texts, List.forall_mem_append, List.forall_mem_cons] at htexts
    have hclass : c ∉ (options.valueClass d ++ ".hpp").toList := by
      simp [ArtifactOptions.valueClass, hname, htexts, hc]
    simp only [preamble, RepositoryDeclaration.preamble, List.forall_mem_append,
      List.forall_mem_cons]
    refine ⟨⟨by simp [hc], hinclude ?_, hinclude ?_, hinclude hclass, by simp⟩, ?_⟩
    · simp [htexts]
    · simp [htexts]
    · split
      · simpa using hinclude (by simp [htexts])
      · simp
  | definition =>
    simp only [ArtifactOptions.texts, List.forall_mem_append, List.forall_mem_cons] at htexts
    have hclass : c ∉ (options.repository d ++ ".hpp").toList := by
      simp [ArtifactOptions.repository, hname, htexts, hc]
    simp only [preamble, RepositoryDefinition.preamble, List.forall_mem_cons]
    exact ⟨hinclude hclass, hinclude (by simp [htexts]), by simp⟩

/-- A character that is not written into an artifact is in no line before the body. -/
theorem not_mem_prologue (kind : ArtifactKind) :
    ∀ line ∈ prologue options d kind, c ∉ line.toList := by
  have hopen : ∀ line ∈ (namespaceNames options d).map openLine, c ∉ line.toList := by
    intro line hl
    obtain ⟨name, hn, rfl⟩ := List.mem_map.1 hl
    have hname : c ∉ name.toList := by
      rcases List.mem_append.1 hn with houter | hsegment
      · exact h.options name (by simp [ArtifactOptions.texts, houter])
      · exact h.segments name hsegment
    simp [prologueText] at hc
    simp [openLine, hname, hc]
  have hblank : ∀ line ∈ [""], c ∉ line.toList := by simp
  unfold prologue
  simp only [List.forall_mem_append, List.forall_mem_cons (a := provenance options d)]
  exact ⟨⟨⟨⟨not_mem_provenance h ha hpart hc, not_mem_preamble h ha hpart hc kind⟩, hblank⟩,
    hopen⟩, hblank⟩

end Prologue

/-- The lines behind a body have nothing but braces. -/
theorem not_mem_closing (hc : c ≠ '\x7d') :
    ∀ line ∈ "" :: (namespaceNames options d).map fun _ => "\x7d", c ∉ line.toList := by
  intro line hl
  rcases List.mem_cons.1 hl with rfl | hl
  · exact List.not_mem_nil
  · obtain ⟨_, _, rfl⟩ := List.mem_map.1 hl
    simpa using hc

/-! ## 3. No line has a line feed -/

/-- An identifier has no line feed. -/
theorem unbroken_of_checked {name : String} (h : nameFault? name = none) : '\n' ∉ name.toList :=
  not_mem_of_checked h (by decide)

section Unbroken

variable (h : Without '\n' options d) (ha : d.Accepted rules)

include h ha

theorem body_unbroken (kind : ArtifactKind) :
    ∀ line ∈ body options d kind, '\n' ∉ line.toList := by
  have hname := unbroken_of_checked ha.name
  have hfields : ∀ field ∈ d.fields, '\n' ∉ field.name.toList
      ∧ '\n' ∉ field.accessorName.toList ∧ '\n' ∉ field.storageType.toList
      ∧ '\n' ∉ field.callType.toList := fun field hf =>
    ⟨unbroken_of_checked (ha.settled field hf).name, unbroken_of_checked (ha.accessors field hf),
      h.storage field hf, h.callType ha (by decide) hf⟩
  have htexts := h.options
  simp only [ArtifactOptions.texts, List.forall_mem_append, List.forall_mem_cons] at htexts
  have hclass : '\n' ∉ (options.valueClass d).toList := by
    simp [ArtifactOptions.valueClass, hname, htexts]
  have hrepository : '\n' ∉ (options.repository d).toList := by
    simp [ArtifactOptions.repository, hname, htexts]
  cases kind with
  | valueClass =>
    have hparameters : '\n' ∉ (Text.joined ", " (d.fields.map ValueClass.parameter)).toList := by
      refine Text.not_mem_joined (by decide) fun member hm => ?_
      obtain ⟨field, hf, rfl⟩ := List.mem_map.1 hm
      simp [ValueClass.parameter, hfields field hf]
    have hinitialisers : ∀ line ∈ Text.withSeparators "," " \x7b\x7d"
        (d.fields.map (ValueClass.initialiser options)), '\n' ∉ line.toList :=
      Text.forall_withSeparators ha.fields_ne_nil fun field hf close hclose => by
        rcases hclose with rfl | rfl <;>
          simp [ValueClass.initialiser, ResolvedField.memberName, htexts, hfields field hf]
    have haccessors : ∀ line ∈ d.fields.map (ValueClass.accessorLine options),
        '\n' ∉ line.toList := fun line hl => by
      obtain ⟨field, hf, rfl⟩ := List.mem_map.1 hl
      simp [ValueClass.accessorLine, ResolvedField.memberName, htexts, hfields field hf]
    have hmembers : ∀ line ∈ d.fields.map (ValueClass.memberLine options),
        '\n' ∉ line.toList := fun line hl => by
      obtain ⟨field, hf, rfl⟩ := List.mem_map.1 hl
      simp [ValueClass.memberLine, ResolvedField.memberName, htexts, hfields field hf]
    simp only [body, ValueClass.body, List.forall_mem_append, List.forall_mem_cons]
    refine ⟨⟨⟨⟨⟨⟨⟨?_, by decide, by simp⟩, haccessors⟩, by decide, by simp⟩, hmembers⟩,
      by decide, ?_, by simp⟩, hinitialisers⟩, by decide, by simp⟩
    · simp [hclass]
    · simp [ValueClass.constructorLine, hclass, hparameters, htexts]
  | declaration =>
    have hkey := hfields d.primaryKey ha.primaryKey_mem
    simp [body, RepositoryDeclaration.body, hclass, hrepository, hkey, htexts]
  | definition =>
    have hread : ∀ field ∈ d.fields,
        '\n' ∉ (RepositoryDefinition.readField options field).toList := fun field hf => by
      unfold RepositoryDefinition.readField
      split <;> simp [hfields field hf, htexts]
    have harguments : ∀ line ∈ Text.withSeparators "," ")));"
        (d.fields.map (RepositoryDefinition.argument options)), '\n' ∉ line.toList :=
      Text.forall_withSeparators ha.fields_ne_nil fun field hf close hclose => by
        rcases hclose with rfl | rfl <;>
          simp [RepositoryDefinition.argument, hread field hf, htexts]
    have hkey := hread d.primaryKey ha.primaryKey_mem
    simp only [body, RepositoryDefinition.body, List.forall_mem_append, List.forall_mem_cons]
    refine ⟨⟨⟨?_, ?_, ?_, ?_, ?_, ?_, ?_, ?_, ?_, by simp⟩, harguments⟩, ?_, by decide, by simp⟩
    all_goals simp [hname, hclass, hrepository, hkey, htexts]

/-- **The text of an artifact gives its lines back.** -/
theorem linesOf_textOf (kind : ArtifactKind) :
    Text.linesOf (textOf options d kind) = lines options d kind := by
  refine Text.linesOf_ofLines ?_
  rw [lines_eq]
  exact List.forall_mem_append.2 ⟨not_mem_prologue h ha (by decide) (by decide) kind,
    List.forall_mem_append.2 ⟨body_unbroken h ha kind, not_mem_closing (by decide)⟩⟩

end Unbroken

/-! ## 4. How the lines before the body begin -/

theorem mem_preamble {kind : ArtifactKind} {line : String} (hl : line ∈ preamble options d kind) :
    line = "#pragma once" ∨ ∃ header, line = ValueClass.includeLine header := by
  cases kind with
  | valueClass =>
    rcases List.mem_cons.1 hl with rfl | hl
    · exact Or.inl rfl
    · obtain ⟨header, _, rfl⟩ := List.mem_map.1 hl
      exact Or.inr ⟨header, rfl⟩
  | declaration =>
    simp only [preamble, RepositoryDeclaration.preamble, List.mem_append, List.mem_cons,
      List.not_mem_nil, or_false] at hl
    rcases hl with (hl | hl | hl | hl) | hl
    · exact Or.inl hl
    · exact Or.inr ⟨_, hl⟩
    · exact Or.inr ⟨_, hl⟩
    · exact Or.inr ⟨_, hl⟩
    · split at hl
      · exact Or.inr ⟨_, List.mem_singleton.1 hl⟩
      · cases hl
  | definition =>
    simp only [preamble, RepositoryDefinition.preamble, List.mem_cons, List.not_mem_nil,
      or_false] at hl
    rcases hl with hl | hl
    · exact Or.inr ⟨_, hl⟩
    · exact Or.inr ⟨_, hl⟩

/-- What a line before the body begins with: it is a comment, a directive, empty or opens a
namespace. -/
def prologueHeads : List (Option Char) := [some '/', some '#', none, some 'n']

theorem head_prologue {kind : ArtifactKind} {line : String}
    (hl : line ∈ prologue options d kind) : line.toList.head? ∈ prologueHeads := by
  unfold prologueHeads
  simp only [prologue, List.mem_append, List.mem_cons, List.not_mem_nil, or_false] at hl
  rcases hl with (((rfl | hl) | rfl) | hl) | rfl
  · unfold provenance
    split <;> simp
  · rcases mem_preamble hl with rfl | ⟨header, rfl⟩
    · decide
    · simp [ValueClass.includeLine]
  · decide
  · obtain ⟨name, _, rfl⟩ := List.mem_map.1 hl
    simp [openLine]
  · decide

theorem head_prologue_ne {kind : ArtifactKind} {line : String}
    (hl : line ∈ prologue options d kind) {head : Option Char} (h : head ∉ prologueHeads) :
    line.toList.head? ≠ head :=
  fun e => h (e ▸ head_prologue hl)

end Artifact

end MasterSchema
