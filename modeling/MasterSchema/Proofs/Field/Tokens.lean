import Mathlib.Data.List.Basic
import Mathlib.Data.List.Forall2
import Mathlib.Data.List.TakeWhile
import MasterSchema.Proofs.DataType.CodeNames

/-!
# Which type tokens are accepted

A token is a base type and attributes, with colons between them and blanks around any of them.

* The parts of a token are what stands between its colons without the blanks around it
  (`isPartOf_tokenParts`).
* What is wrong with an attribute depends on the attributes in front of it only
  (`attributeFault?`). Reading keeps two flags instead, and they say all that is needed
  (`readTag_tagsOf`).
* `readTags_eq_ok` and `readTags_eq_error` are the inductions on the attributes.
* `read_spec` says which tokens are accepted and as what (`Readable`, `meant`), that the error is
  that of the first fault from left to right (`FirstFault`), and that neither the order of the
  attributes nor repeated identifier tags nor blanks matter.
-/

namespace MasterSchema.FieldDeclaration

open Text

/-! ## 1. The parts of a token -/

/-- What stands before the first colon. -/
def baseOf (token : String) : String :=
  (tokenParts token).headD ""

/-- What stands behind the first colon, between the others. -/
def attributesOf (token : String) : List String :=
  (tokenParts token).tail

theorem tokenParts_eq (token : String) :
    tokenParts token = baseOf token :: attributesOf token := by
  have hne : tokenParts token ≠ [] := by simp [tokenParts]
  obtain ⟨base, attributes, hparts⟩ := List.exists_cons_of_ne_nil hne
  simp [baseOf, attributesOf, hparts]

/-- Characters with blanks around them. -/
def Padded (core padded : List Char) : Prop :=
  ∃ before after, (∀ c ∈ before, isBlank c = true) ∧ (∀ c ∈ after, isBlank c = true)
    ∧ padded = before ++ core ++ after

/-- A text that stands in characters with nothing but blanks around it, and has no blank at its
ends. -/
structure IsPartOf (piece : List Char) (part : String) : Prop where
  padded : Padded part.toList piece
  first : ∀ c ∈ part.toList.head?, isBlank c = false
  last : ∀ c ∈ part.toList.getLast?, isBlank c = false

theorem not_isBlank_of_head? {cs : List Char} {c : Char}
    (h : c ∈ (cs.dropWhile isBlank).head?) : isBlank c = false := by
  have hnot := List.head?_dropWhile_not isBlank cs
  rwa [Option.mem_def.1 h] at hnot

/-- What is left between the blanks has them around it, and none at its ends. -/
theorem isPartOf_trimmed (piece : List Char) : IsPartOf piece (String.ofList (trimmed piece)) := by
  have hback : trimmed piece ++ ((piece.dropWhile isBlank).reverse.takeWhile isBlank).reverse
      = piece.dropWhile isBlank := by
    rw [trimmed, ← List.reverse_append, List.takeWhile_append_dropWhile, List.reverse_reverse]
  constructor
  · refine ⟨piece.takeWhile isBlank,
      ((piece.dropWhile isBlank).reverse.takeWhile isBlank).reverse, ?_, ?_, ?_⟩
    · exact fun c hc => List.mem_takeWhile_imp hc
    · exact fun c hc => List.mem_takeWhile_imp (List.mem_reverse.1 hc)
    · rw [String.toList_ofList, List.append_assoc, hback, List.takeWhile_append_dropWhile]
  · intro c hc
    rw [String.toList_ofList] at hc
    have hfirst : c ∈ (piece.dropWhile isBlank).head? := by
      rw [← hback, List.head?_append, Option.mem_def.1 hc]
      rfl
    exact not_isBlank_of_head? hfirst
  · intro c hc
    rw [String.toList_ofList, trimmed, List.getLast?_reverse] at hc
    exact not_isBlank_of_head? hc

/-- **The parts of a token are what stands between its colons, without the blanks around it.** -/
theorem isPartOf_tokenParts (token : String) :
    List.Forall₂ IsPartOf (token.toList.splitOn ':') (baseOf token :: attributesOf token) := by
  rw [← tokenParts_eq, tokenParts, List.forall₂_map_right_iff, List.forall₂_same]
  exact fun piece _ => isPartOf_trimmed piece

/-! ## 2. One attribute -/

/-- An attribute that marks the primary key. If one tag means both, it marks an identifier. -/
def isKeyTag (rules : Rules) (tag : String) : Bool :=
  tag == rules.primaryKeyTag && tag != rules.idTag

/-- What is wrong with an attribute, `before` being the attributes in front of it. -/
def attributeFault? (rules : Rules) (field token : String) (before : List String)
    (tag : String) : Option SchemaError :=
  if tag = "" then some (.malformedToken field token .emptyAttribute)
  else if tag = rules.idTag then none
  else if tag ≠ rules.primaryKeyTag then some (.unknownAttribute field tag)
  else if tag ∈ before then some (.malformedToken field token .repeatedKeyTag)
  else none

/-- What attributes say, in whatever order they are. -/
def tagsOf (rules : Rules) (tags : List String) : Tags :=
  ⟨decide (rules.idTag ∈ tags), tags.any (isKeyTag rules)⟩

variable {rules : Rules} {field token : String}

theorem any_isKeyTag (tags : List String) (h : rules.primaryKeyTag ≠ rules.idTag) :
    tags.any (isKeyTag rules) = decide (rules.primaryKeyTag ∈ tags) := by
  rw [Bool.eq_iff_iff, List.any_eq_true, decide_eq_true_eq]
  constructor
  · intro hsome
    obtain ⟨tag, hm, hkey⟩ := hsome
    obtain ⟨htag, _⟩ := Bool.and_eq_true_iff.1 hkey
    exact eq_of_beq htag ▸ hm
  · intro hm
    exact ⟨rules.primaryKeyTag, hm, by simp [isKeyTag, h]⟩

/-- **One step of the reading:** the flags of the attributes before it say whether an attribute has
a fault, and with it they are the flags of one attribute more. -/
theorem readTag_tagsOf (before : List String) (tag : String) :
    readTag rules field token (tagsOf rules before) tag
      = match attributeFault? rules field token before tag with
        | some e => .error e
        | none => .ok (tagsOf rules (before ++ [tag])) := by
  unfold readTag attributeFault?
  by_cases hempty : tag = ""
  · simp [hempty]
  · by_cases hid : tag = rules.idTag
    · subst hid
      simp [hempty, tagsOf, isKeyTag]
    · by_cases hkey : tag = rules.primaryKeyTag
      · subst hkey
        have hany := any_isKeyTag before hid
        by_cases hm : rules.primaryKeyTag ∈ before
        · simp [hempty, hid, hm, tagsOf, hany]
        · have hid' : rules.idTag ≠ rules.primaryKeyTag := fun h => hid h.symm
          simp [hempty, hid, hid', hm, tagsOf, hany, isKeyTag]
      · simp [hempty, hid, hkey]

/-! ## 3. All attributes -/

/-- No attribute of a list has a fault, `before` being the attributes in front of the list. -/
def FaultFree (rules : Rules) (field token : String) (before tags : List String) : Prop :=
  ∀ front tag back, tags = front ++ tag :: back →
    attributeFault? rules field token (before ++ front) tag = none

theorem faultFree_nil (before : List String) : FaultFree rules field token before [] := by
  intro front tag back h
  cases front <;> cases h

theorem faultFree_cons {before rest : List String} {tag : String} :
    FaultFree rules field token before (tag :: rest) ↔
      attributeFault? rules field token before tag = none
        ∧ FaultFree rules field token (before ++ [tag]) rest := by
  constructor
  · intro h
    refine ⟨by simpa using h [] tag rest rfl, fun front other back hrest => ?_⟩
    have hother := h (tag :: front) other back (by rw [hrest, List.cons_append])
    rwa [List.append_cons] at hother
  · rintro ⟨htag, hrest⟩ front other back h
    cases front with
    | nil =>
      obtain ⟨rfl, _⟩ := List.cons.inj h
      rwa [List.append_nil]
    | cons first front =>
      obtain ⟨rfl, hback⟩ := List.cons.inj h
      rw [List.append_cons]
      exact hrest front other back hback

/-- Attributes are read if none has a fault. -/
theorem readTags_eq_ok : ∀ {rest before : List String} {tags : Tags},
    readTags rules field token (tagsOf rules before) rest = .ok tags ↔
      FaultFree rules field token before rest ∧ tags = tagsOf rules (before ++ rest)
  | [], before, tags => by
      rw [readTags, List.append_nil, and_iff_right (faultFree_nil before)]
      exact ⟨fun h => (Except.ok.inj h).symm, fun h => h ▸ rfl⟩
  | tag :: rest, before, tags => by
      rw [readTags, readTag_tagsOf, faultFree_cons]
      cases hfault : attributeFault? rules field token before tag with
      | some e => simp
      | none =>
        have ih := @readTags_eq_ok rest (before ++ [tag]) tags
        rw [← List.append_cons] at ih
        simpa using ih

/-- Of attributes that are not read, the first with a fault is reported. -/
theorem readTags_eq_error : ∀ {rest before : List String} {e : SchemaError},
    readTags rules field token (tagsOf rules before) rest = .error e ↔
      ∃ front tag back, rest = front ++ tag :: back ∧ FaultFree rules field token before front
        ∧ attributeFault? rules field token (before ++ front) tag = some e
  | [], before, e => by
      constructor
      · intro h
        cases h
      · intro hsome
        obtain ⟨front, tag, back, h, _⟩ := hsome
        cases front <;> cases h
  | tag :: rest, before, e => by
      have ih := @readTags_eq_error rest (before ++ [tag]) e
      rw [readTags, readTag_tagsOf]
      cases hfault : attributeFault? rules field token before tag with
      | some cause =>
        constructor
        · intro h
          refine ⟨[], tag, rest, rfl, faultFree_nil before, ?_⟩
          rw [List.append_nil, hfault, Except.error.inj h]
        · intro hsome
          obtain ⟨front, other, back, hsplit, hfront, hother⟩ := hsome
          cases front with
          | nil =>
            obtain ⟨rfl, _⟩ := List.cons.inj hsplit
            rw [List.append_nil, hfault] at hother
            exact congrArg _ (Option.some.inj hother)
          | cons first front =>
            obtain ⟨rfl, _⟩ := List.cons.inj hsplit
            rw [(faultFree_cons.1 hfront).1] at hfault
            cases hfault
      | none =>
        refine Iff.trans ih ?_
        constructor
        · intro hsome
          obtain ⟨front, other, back, rfl, hfront, hother⟩ := hsome
          refine ⟨tag :: front, other, back, rfl, faultFree_cons.2 ⟨hfault, hfront⟩, ?_⟩
          rwa [List.append_cons]
        · intro hsome
          obtain ⟨front, other, back, hsplit, hfront, hother⟩ := hsome
          cases front with
          | nil =>
            obtain ⟨rfl, _⟩ := List.cons.inj hsplit
            rw [List.append_nil, hfault] at hother
            cases hother
          | cons first front =>
            obtain ⟨rfl, rfl⟩ := List.cons.inj hsplit
            rw [List.append_cons] at hother
            exact ⟨front, other, back, rfl, (faultFree_cons.1 hfront).2, hother⟩

theorem attributeFault?_eq_none {before : List String} {tag : String} :
    attributeFault? rules field token before tag = none ↔
      tag ≠ "" ∧ (tag = rules.idTag ∨ tag = rules.primaryKeyTag)
        ∧ ¬ (isKeyTag rules tag = true ∧ before.any (isKeyTag rules) = true) := by
  unfold attributeFault?
  by_cases hempty : tag = ""
  · simp [hempty]
  · by_cases hid : tag = rules.idTag
    · subst hid
      simp [hempty, isKeyTag]
    · by_cases hkey : tag = rules.primaryKeyTag
      · subst hkey
        rw [any_isKeyTag _ hid]
        simp [hempty, hid, isKeyTag]
      · simp [hempty, hid, hkey]

/-- Attributes have no faults if each is a tag and at most one marks the primary key, none if one
before them does. -/
theorem faultFree_iff : ∀ {tags before : List String},
    FaultFree rules field token before tags ↔
      (∀ tag ∈ tags, tag ≠ "" ∧ (tag = rules.idTag ∨ tag = rules.primaryKeyTag))
        ∧ tags.countP (isKeyTag rules) ≤ (if before.any (isKeyTag rules) then 0 else 1)
  | [], before => by simp [faultFree_nil]
  | tag :: rest, before => by
      have ih := @faultFree_iff rest (before ++ [tag])
      rw [faultFree_cons, attributeFault?_eq_none, ih, List.forall_mem_cons, List.countP_cons,
        List.any_append, List.any_cons, List.any_nil, Bool.or_false]
      cases isKeyTag rules tag <;> cases before.any (isKeyTag rules) <;> simp <;> tauto

/-! ## 4. Tokens -/

/-- What an accepted token is like. -/
structure Readable (rules : Rules) (field token : String) : Prop where
  name : CodeName field
  parts : ∀ part ∈ baseOf token :: attributesOf token, part ≠ ""
  attributes : ∀ tag ∈ attributesOf token, tag = rules.idTag ∨ tag = rules.primaryKeyTag
  keys : (attributesOf token).countP (isKeyTag rules) ≤ 1
  base : rules.idTag ∈ attributesOf token ∨ baseOf token ∈ rules.allowedTypes

/-- What an accepted token means. -/
def meant (rules : Rules) (field token : String) : FieldDeclaration where
  name := field
  base := baseOf token
  isId := decide (rules.idTag ∈ attributesOf token)
  isPrimaryKey := (attributesOf token).any (isKeyTag rules)

/-- The error of the first fault: the name is read first, then the token from left to right, and a
base type is looked up when all parts are right. -/
inductive FirstFault (rules : Rules) (field token : String) : SchemaError → Prop where
  | badName {fault : NameFault} : nameFault? field = some fault →
      FirstFault rules field token (.badName .field field fault)
  | emptyBase : CodeName field → baseOf token = "" →
      FirstFault rules field token (.malformedToken field token .emptyBase)
  | badAttribute {before after : List String} {tag : String} {e : SchemaError} :
      CodeName field → baseOf token ≠ "" → attributesOf token = before ++ tag :: after →
      FaultFree rules field token [] before →
      attributeFault? rules field token before tag = some e → FirstFault rules field token e
  | unknownBase : CodeName field → baseOf token ≠ "" →
      FaultFree rules field token [] (attributesOf token) →
      rules.idTag ∉ attributesOf token → baseOf token ∉ rules.allowedTypes →
      FirstFault rules field token (.unknownBase field (baseOf token))

theorem readable_iff : Readable rules field token ↔
    CodeName field ∧ baseOf token ≠ "" ∧ FaultFree rules field token [] (attributesOf token)
      ∧ (rules.idTag ∈ attributesOf token ∨ baseOf token ∈ rules.allowedTypes) := by
  rw [faultFree_iff]
  constructor
  · intro h
    obtain ⟨hne, hrest⟩ := List.forall_mem_cons.1 h.parts
    exact ⟨h.name, hne,
      ⟨fun tag hm => ⟨hrest tag hm, h.attributes tag hm⟩, h.keys⟩, h.base⟩
  · intro ⟨hname, hne, ⟨htags, hkeys⟩, hbase⟩
    have hrest : ∀ tag ∈ attributesOf token, tag ≠ "" := fun tag hm => (htags tag hm).1
    exact ⟨hname, List.forall_mem_cons.2 ⟨hne, hrest⟩, fun tag hm => (htags tag hm).2, hkeys, hbase⟩

/-- What becomes of the parts of a token, the attributes being read with their faults. -/
theorem read_eq (h : CodeName field) : read rules field token =
    if baseOf token = "" then .error (.malformedToken field token .emptyBase)
    else
      match readTags rules field token (tagsOf rules []) (attributesOf token) with
      | .error e => .error e
      | .ok tags =>
        if tags.isId || rules.allowedTypes.contains (baseOf token) then
          .ok ⟨field, baseOf token, tags.isId, tags.isPrimaryKey⟩
        else .error (.unknownBase field (baseOf token)) := by
  rw [read, checkName, codeName_iff.1 h, tokenParts_eq, ofParts]
  simp only [beq_iff_eq]
  rfl

theorem read_of_readable (h : Readable rules field token) :
    read rules field token = .ok (meant rules field token) := by
  obtain ⟨hname, hne, hfree, hbase⟩ := readable_iff.1 h
  have htags : readTags rules field token (tagsOf rules []) (attributesOf token)
      = .ok (tagsOf rules (attributesOf token)) := readTags_eq_ok.2 ⟨hfree, rfl⟩
  have hallowed : ((tagsOf rules (attributesOf token)).isId
      || rules.allowedTypes.contains (baseOf token)) = true := by
    simpa [tagsOf] using hbase
  rw [read_eq hname, if_neg hne, htags]
  exact if_pos hallowed

theorem read_of_firstFault {e : SchemaError} (h : FirstFault rules field token e) :
    read rules field token = .error e := by
  cases h with
  | badName hfault => rw [read, checkName, hfault]
  | emptyBase hname hempty => rw [read_eq hname, if_pos hempty]
  | badAttribute hname hne hsplit hbefore hfault =>
    have htags : readTags rules field token (tagsOf rules []) (attributesOf token) = .error e :=
      readTags_eq_error.2 ⟨_, _, _, hsplit, hbefore, hfault⟩
    rw [read_eq hname, if_neg hne, htags]
  | unknownBase hname hne hfree hid hbase =>
    have htags : readTags rules field token (tagsOf rules []) (attributesOf token)
        = .ok (tagsOf rules (attributesOf token)) := readTags_eq_ok.2 ⟨hfree, rfl⟩
    rw [read_eq hname, if_neg hne, htags]
    exact if_neg (by simp [tagsOf, hid, hbase])

/-- A token is readable or has a first fault. -/
theorem readable_or_firstFault (rules : Rules) (field token : String) :
    Readable rules field token ∨ ∃ e, FirstFault rules field token e := by
  cases hname : nameFault? field with
  | some fault => exact Or.inr ⟨_, .badName hname⟩
  | none =>
    have hname := codeName_iff.2 hname
    by_cases hempty : baseOf token = ""
    · exact Or.inr ⟨_, .emptyBase hname hempty⟩
    · cases htags : readTags rules field token (tagsOf rules []) (attributesOf token) with
      | error e =>
        obtain ⟨before, tag, after, hsplit, hbefore, hfault⟩ := readTags_eq_error.1 htags
        exact Or.inr ⟨e, .badAttribute hname hempty hsplit hbefore hfault⟩
      | ok tags =>
        have hfree := (readTags_eq_ok.1 htags).1
        by_cases hbase : rules.idTag ∈ attributesOf token ∨ baseOf token ∈ rules.allowedTypes
        · exact Or.inl (readable_iff.2 ⟨hname, hempty, hfree, hbase⟩)
        · obtain ⟨hid, hallowed⟩ := not_or.1 hbase
          exact Or.inr ⟨_, .unknownBase hname hempty hfree hid hallowed⟩

/-- **A token is accepted exactly if it is readable, and then as what it means.** -/
theorem read_eq_ok {d : FieldDeclaration} :
    read rules field token = .ok d ↔ Readable rules field token ∧ d = meant rules field token := by
  constructor
  · intro h
    rcases readable_or_firstFault rules field token with hreadable | ⟨e, he⟩
    · exact ⟨hreadable, Except.ok.inj (h.symm.trans (read_of_readable hreadable))⟩
    · cases h.symm.trans (read_of_firstFault he)
  · rintro ⟨hreadable, rfl⟩
    exact read_of_readable hreadable

/-- **A token that is refused is refused for its first fault.** -/
theorem read_eq_error {e : SchemaError} :
    read rules field token = .error e ↔ FirstFault rules field token e := by
  constructor
  · intro h
    rcases readable_or_firstFault rules field token with hreadable | ⟨cause, hcause⟩
    · cases h.symm.trans (read_of_readable hreadable)
    · rwa [Except.error.inj (h.symm.trans (read_of_firstFault hcause))]
  · exact read_of_firstFault

/-! ## 5. What does not matter -/

/-- The same attributes, but for their order and for repeated identifier tags. -/
structure SameAttributes (rules : Rules) (tags tags' : List String) : Prop where
  identifier : rules.idTag ∈ tags ↔ rules.idTag ∈ tags'
  others : (tags.filter (· ≠ rules.idTag)).Perm (tags'.filter (· ≠ rules.idTag))

theorem SameAttributes.refl (tags : List String) : SameAttributes rules tags tags :=
  ⟨Iff.rfl, List.Perm.refl _⟩

theorem SameAttributes.symm {tags tags' : List String} (h : SameAttributes rules tags tags') :
    SameAttributes rules tags' tags :=
  ⟨h.identifier.symm, h.others.symm⟩

theorem SameAttributes.mem_iff {tags tags' : List String} (h : SameAttributes rules tags tags')
    (tag : String) : tag ∈ tags ↔ tag ∈ tags' := by
  by_cases hid : tag = rules.idTag
  · rw [hid]
    exact h.identifier
  · have hm := h.others.mem_iff (a := tag)
    simpa [hid] using hm

/-- The identifier tag does not count as a key tag, whatever the key tag is. -/
theorem countP_isKeyTag (tags : List String) : tags.countP (isKeyTag rules)
    = (tags.filter (· ≠ rules.idTag)).countP (isKeyTag rules) := by
  rw [List.countP_filter]
  refine List.countP_congr fun tag _ => ?_
  simp [isKeyTag]

theorem SameAttributes.countP_eq {tags tags' : List String}
    (h : SameAttributes rules tags tags') :
    tags.countP (isKeyTag rules) = tags'.countP (isKeyTag rules) := by
  rw [countP_isKeyTag, countP_isKeyTag tags', h.others.countP_eq]

theorem SameAttributes.any_eq {tags tags' : List String} (h : SameAttributes rules tags tags') :
    tags.any (isKeyTag rules) = tags'.any (isKeyTag rules) := by
  rw [Bool.eq_iff_iff, List.any_eq_true, List.any_eq_true]
  simp only [h.mem_iff]

section Same

variable {token' : String} (hbase : baseOf token = baseOf token')
  (h : SameAttributes rules (attributesOf token) (attributesOf token'))

include hbase h

theorem meant_congr : meant rules field token = meant rules field token' := by
  simp only [meant, hbase, h.any_eq, h.identifier]

theorem Readable.congr (hreadable : Readable rules field token) :
    Readable rules field token' where
  name := hreadable.name
  parts := by
    obtain ⟨hne, hrest⟩ := List.forall_mem_cons.1 hreadable.parts
    exact List.forall_mem_cons.2 ⟨hbase ▸ hne, fun tag hm => hrest tag ((h.mem_iff tag).2 hm)⟩
  attributes tag hm := hreadable.attributes tag ((h.mem_iff tag).2 hm)
  keys := h.countP_eq ▸ hreadable.keys
  base := by
    rw [← h.identifier, ← hbase]
    exact hreadable.base

end Same

/-- **Tokens of one base type and the same attributes are read alike.** -/
theorem read_congr {token' : String} (hbase : baseOf token = baseOf token')
    (h : SameAttributes rules (attributesOf token) (attributesOf token')) (d : FieldDeclaration) :
    read rules field token = .ok d ↔ read rules field token' = .ok d := by
  rw [read_eq_ok, read_eq_ok, meant_congr hbase h]
  exact and_congr_left' ⟨fun hreadable => hreadable.congr hbase h,
    fun hreadable => hreadable.congr hbase.symm h.symm⟩

/-- The same characters, but for blanks around them. -/
def SameButBlanks (cs cs' : List Char) : Prop :=
  ∃ core, Padded core cs ∧ Padded core cs'

theorem trimmed_of_padded {core padded : List Char} (h : Padded core padded) :
    trimmed padded = trimmed core := by
  obtain ⟨before, after, hbefore, hafter, rfl⟩ := h
  have hfront : (before ++ core ++ after).dropWhile isBlank = (core ++ after).dropWhile isBlank := by
    rw [List.append_assoc]
    exact List.dropWhile_append_of_pos hbefore
  unfold trimmed
  rw [hfront, List.dropWhile_append]
  split
  · rename_i hcore
    have hnil : after.dropWhile isBlank = [] :=
      List.dropWhile_eq_nil_iff.2 hafter
    rw [hnil, List.isEmpty_iff.1 hcore]
  · have hback : ∀ c ∈ after.reverse, isBlank c = true :=
      fun c hc => hafter c (List.mem_reverse.1 hc)
    rw [List.reverse_append, List.dropWhile_append_of_pos hback]

theorem tokenParts_congr {token' : String}
    (h : List.Forall₂ SameButBlanks (token.toList.splitOn ':') (token'.toList.splitOn ':')) :
    tokenParts token = tokenParts token' := by
  have hparts : ∀ {parts parts' : List (List Char)}, List.Forall₂ SameButBlanks parts parts' →
      parts.map trimmed = parts'.map trimmed := by
    intro parts parts' hsame
    induction hsame with
    | nil => rfl
    | cons hpart _ ih =>
      obtain ⟨core, hcore, hcore'⟩ := hpart
      rw [List.map_cons, List.map_cons, ih, trimmed_of_padded hcore, trimmed_of_padded hcore']
  have hmap : ∀ s : String, tokenParts s
      = ((s.toList.splitOn ':').map trimmed).map String.ofList := fun s => by
    rw [List.map_map]
    rfl
  rw [hmap, hmap, hparts h]

/-! ## 6. All of it -/

/-- What becomes of a field's name and token. -/
structure Reading (rules : Rules) (field token : String) : Prop where
  /-- The base type and the attributes are what stands between the colons, blanks around it not
  counting. -/
  parts : List.Forall₂ IsPartOf (token.toList.splitOn ':') (baseOf token :: attributesOf token)
  accepted : ∀ d, read rules field token = .ok d ↔
    Readable rules field token ∧ d = meant rules field token
  refused : ∀ e, read rules field token = .error e ↔ FirstFault rules field token e
  /-- Neither the order of the attributes nor repeated identifier tags matter. -/
  attributes : ∀ token', baseOf token = baseOf token' →
    SameAttributes rules (attributesOf token) (attributesOf token') →
    ∀ d, read rules field token = .ok d ↔ read rules field token' = .ok d
  /-- Blanks around the parts do not matter. -/
  blanks : ∀ token' : String,
    List.Forall₂ SameButBlanks (token.toList.splitOn ':') (token'.toList.splitOn ':') →
    ∀ d, read rules field token = .ok d ↔ read rules field token' = .ok d

/-- **A token is accepted exactly if the field's name is one for code, no part is empty, every
attribute is a tag, at most one of them marks the primary key, and the base type is allowed or the
token is tagged as an identifier.** The parts are what stands between the colons, without the blanks
around it. A token means what its base type and the set of its attributes say, and one that is
refused is refused for the first fault from left to right. -/
theorem read_spec (rules : Rules) (field token : String) : Reading rules field token where
  parts := isPartOf_tokenParts token
  accepted _ := read_eq_ok
  refused _ := read_eq_error
  attributes _ hbase h := read_congr hbase h
  blanks token' h := by
    have hparts := tokenParts_congr h
    have hbase : baseOf token = baseOf token' := by rw [baseOf, hparts, baseOf]
    have hattributes : attributesOf token = attributesOf token' := by
      rw [attributesOf, hparts, attributesOf]
    exact read_congr hbase (hattributes ▸ .refl _)

/-- If one tag has both meanings, it tags an identifier. -/
example : (read { primaryKeyTag := "ID" } "id" "Kanji:ID:ID").toOption
    = some ⟨"id", "Kanji", true, false⟩ := by decide

example : (read {} "id" " Kanji\u3000:ID:\tPKey:ID").toOption
    = (read {} "id" "Kanji:PKey:ID").toOption := by decide

end MasterSchema.FieldDeclaration
