import Mathlib.Data.List.Forall2
import Mathlib.Data.List.Induction
import Mathlib.Data.List.Nodup
import MasterSchema.Proofs.DataType.Accepted

/-!
# The walk of a schema tree

Loading a schema tree goes through its entries in depth-first order and registers what they declare.

* `entriesIn` are the entries of a tree in that order, each with the keys above it;
* `WellDeclared` says which entries can be loaded, `Offends` why one cannot be loaded behind others;
  entries that are not well declared have a first one that offends (`wellDeclared_or_offends`);
* `addEntries_result` takes the recursion out of the walk: it is a fold over the entries, `visit`
  being what one entry does (`visit_of_fits`, `visit_of_offends`);
* `load_spec` says when a tree is loaded, which data types come out, and which error otherwise.
-/

namespace MasterSchema

/-! ## 1. Entries -/

/-- An entry of a table of a schema tree, with the keys above it. -/
structure SchemaEntry where
  ns : Namespace
  key : String
  value : Value

mutual

/-- The entries below an entry. A declaration's table belongs to the declaration and has none. -/
def entriesBelow (options : SchemaOptions) (ns : Namespace) (key : String) :
    Value → List SchemaEntry
  | .table child =>
    if options.isDeclaration key then [] else entriesIn options (ns.child key) child
  | _ => []

/-- The entries of a table, each followed by those below it. -/
def entriesIn (options : SchemaOptions) (ns : Namespace) :
    List (String × Value) → List SchemaEntry
  | [] => []
  | (key, v) :: rest =>
    ⟨ns, key, v⟩ :: (entriesBelow options ns key v ++ entriesIn options ns rest)

end

namespace SchemaEntry

def isDeclaration (options : SchemaOptions) (e : SchemaEntry) : Bool :=
  options.isDeclaration e.key

/-- A declaration declares a data type in the namespace of the keys above it. -/
def Declares (options : SchemaOptions) (e : SchemaEntry) (d : DataType) : Prop :=
  ∃ table, e.value = .table table
    ∧ DataType.ofDeclaration options.rules e.key table e.ns = .ok d

/-- The type name that the table of an entry gives. -/
def givenName (e : SchemaEntry) : Option String :=
  (e.value.asTable?.bind fun table => table.get? Member.typeName.key).bind Value.asText?

/-- What tells one declaration from another. -/
def declaredKey (e : SchemaEntry) : Namespace × Option String :=
  (e.ns, e.givenName)

end SchemaEntry

/-- The declarations among entries. -/
def declarationsOf (options : SchemaOptions) (entries : List SchemaEntry) : List SchemaEntry :=
  entries.filter (·.isDeclaration options)

/-- Entries that can all be loaded. -/
structure WellDeclared (options : SchemaOptions) (entries : List SchemaEntry) : Prop where
  table : ∀ e ∈ entries, ∃ table, e.value = .table table
  segment : ∀ e ∈ entries, e.isDeclaration options = false →
    isIdentifier e.key = true ∧ isReserved e.key = false
  accepted : ∀ e ∈ entries, e.isDeclaration options = true → ∃ d, e.Declares options d
  /-- No two declarations have one name in one namespace. -/
  distinct : ((declarationsOf options entries).map SchemaEntry.declaredKey).Nodup

/-- Why an entry cannot be loaded behind others. -/
inductive Offends (options : SchemaOptions) (before : List SchemaEntry) (e : SchemaEntry) :
    SchemaError → Prop
  | value (hvalue : ∀ table, e.value ≠ .table table) :
      Offends options before e (.wrongValue (.entry e.ns e.key))
  | notIdentifier {table : Table} (hvalue : e.value = .table table)
      (hmarker : e.isDeclaration options = false) (hname : isIdentifier e.key = false) :
      Offends options before e (.badName (.childOf e.ns) e.key .notIdentifier)
  | reserved {table : Table} (hvalue : e.value = .table table)
      (hmarker : e.isDeclaration options = false) (hname : isIdentifier e.key = true)
      (hreserved : isReserved e.key = true) :
      Offends options before e (.badName (.childOf e.ns) e.key .reserved)
  | declaration {table : Table} {cause : SchemaError} (hvalue : e.value = .table table)
      (hmarker : e.isDeclaration options = true)
      (hcause : DataType.ofDeclaration options.rules e.key table e.ns = .error cause) :
      Offends options before e cause
  | repeated {d : DataType} (hmarker : e.isDeclaration options = true)
      (hdeclares : e.Declares options d)
      (hbefore : e.declaredKey ∈ (declarationsOf options before).map SchemaEntry.declaredKey) :
      Offends options before e (.duplicateDataType d.name d.ns)

/-! ## 2. One entry behind others -/

/-- An entry that can be loaded behind others. -/
structure Fits (options : SchemaOptions) (before : List SchemaEntry) (e : SchemaEntry) :
    Prop where
  table : ∃ table, e.value = .table table
  segment : e.isDeclaration options = false → isIdentifier e.key = true ∧ isReserved e.key = false
  accepted : e.isDeclaration options = true → ∃ d, e.Declares options d
  distinct : e.isDeclaration options = true →
    e.declaredKey ∉ (declarationsOf options before).map SchemaEntry.declaredKey

section Entries

variable {options : SchemaOptions} {before : List SchemaEntry} {e : SchemaEntry} {d : DataType}

theorem Fits.not_offends (h : Fits options before e) {cause : SchemaError} :
    ¬ Offends options before e cause := by
  intro ho
  cases ho with
  | value hvalue =>
    obtain ⟨table, ht⟩ := h.table
    exact hvalue table ht
  | notIdentifier _ hmarker hname => simp [(h.segment hmarker).1] at hname
  | reserved _ hmarker _ hreserved => simp [(h.segment hmarker).2] at hreserved
  | declaration hvalue hmarker hcause =>
    obtain ⟨d, table, ht, hd⟩ := h.accepted hmarker
    obtain rfl := Value.table.inj (hvalue.symm.trans ht)
    cases hcause.symm.trans hd
  | repeated hmarker _ hbefore => exact h.distinct hmarker hbefore

/-- **An entry fits behind others, or it offends.** -/
theorem fits_or_offends (options : SchemaOptions) (before : List SchemaEntry) (e : SchemaEntry) :
    Fits options before e ∨ ∃ cause, Offends options before e cause := by
  by_cases hvalue : ∃ table, e.value = .table table
  · obtain ⟨table, hvalue⟩ := hvalue
    cases hmarker : e.isDeclaration options with
    | true =>
      cases hof : DataType.ofDeclaration options.rules e.key table e.ns with
      | error cause => exact Or.inr ⟨cause, .declaration hvalue hmarker hof⟩
      | ok d =>
        have hd : e.Declares options d := ⟨table, hvalue, hof⟩
        by_cases hkey : e.declaredKey ∈ (declarationsOf options before).map SchemaEntry.declaredKey
        · exact Or.inr ⟨_, .repeated hmarker hd hkey⟩
        · exact Or.inl ⟨⟨table, hvalue⟩, fun hno => by simp [hmarker] at hno, fun _ => ⟨d, hd⟩,
            fun _ => hkey⟩
    | false =>
      cases hname : isIdentifier e.key with
      | false => exact Or.inr ⟨_, .notIdentifier hvalue hmarker hname⟩
      | true =>
        cases hreserved : isReserved e.key with
        | true => exact Or.inr ⟨_, .reserved hvalue hmarker hname hreserved⟩
        | false =>
          exact Or.inl ⟨⟨table, hvalue⟩, fun _ => ⟨hname, hreserved⟩,
            fun hyes => by simp [hmarker] at hyes, fun hyes => by simp [hmarker] at hyes⟩
  · exact Or.inr ⟨_, .value fun table ht => hvalue ⟨table, ht⟩⟩

theorem declarationsOf_concat : declarationsOf options (before ++ [e])
    = declarationsOf options before ++ if e.isDeclaration options then [e] else [] := by
  rw [declarationsOf, List.filter_append, List.filter_singleton, ← declarationsOf]
  cases e.isDeclaration options <;> rfl

/-- **Entries can be loaded one behind the other.** -/
theorem wellDeclared_concat :
    WellDeclared options (before ++ [e]) ↔ WellDeclared options before ∧ Fits options before e := by
  constructor
  · intro h
    have hbefore : ∀ other ∈ before, other ∈ before ++ [e] := fun _ => List.mem_append_left _
    have hlast : e ∈ before ++ [e] := List.mem_append_right _ List.mem_cons_self
    have hdistinct := h.distinct
    rw [declarationsOf_concat, List.map_append] at hdistinct
    refine ⟨⟨fun other ho => h.table other (hbefore other ho),
      fun other ho => h.segment other (hbefore other ho),
      fun other ho => h.accepted other (hbefore other ho), (List.nodup_append.1 hdistinct).1⟩,
      ⟨h.table e hlast, h.segment e hlast, h.accepted e hlast, fun hmarker => ?_⟩⟩
    rw [if_pos hmarker] at hdistinct
    exact fun hm => (List.nodup_append.1 hdistinct).2.2 _ hm _ List.mem_cons_self rfl
  · intro hboth
    obtain ⟨h, he⟩ := hboth
    refine ⟨?_, ?_, ?_, ?_⟩
    · exact List.forall_mem_append.2 ⟨h.table, List.forall_mem_singleton.2 he.table⟩
    · exact List.forall_mem_append.2 ⟨h.segment, List.forall_mem_singleton.2 he.segment⟩
    · exact List.forall_mem_append.2 ⟨h.accepted, List.forall_mem_singleton.2 he.accepted⟩
    · rw [declarationsOf_concat]
      split
      · rename_i hmarker
        rw [List.map_append, List.map_singleton]
        refine List.nodup_append.2 ⟨h.distinct, List.nodup_singleton _, ?_⟩
        intro key hkey other ho heq
        rw [heq, List.mem_singleton.1 ho] at hkey
        exact he.distinct hmarker hkey
      · simpa using h.distinct

theorem WellDeclared.of_append {after : List SchemaEntry}
    (h : WellDeclared options (before ++ after)) : WellDeclared options before where
  table other ho := h.table other (List.mem_append_left _ ho)
  segment other ho := h.segment other (List.mem_append_left _ ho)
  accepted other ho := h.accepted other (List.mem_append_left _ ho)
  distinct := by
    have hdistinct := h.distinct
    rw [declarationsOf, List.filter_append, List.map_append] at hdistinct
    exact (List.nodup_append.1 hdistinct).1

/-- **Entries can all be loaded, or there is a first one that offends.** -/
theorem wellDeclared_or_offends (options : SchemaOptions) (entries : List SchemaEntry) :
    WellDeclared options entries ∨ ∃ before e after cause, entries = before ++ e :: after
      ∧ WellDeclared options before ∧ Offends options before e cause := by
  induction entries using List.reverseRecOn with
  | nil => exact Or.inl ⟨by simp, by simp, by simp, List.nodup_nil⟩
  | append_singleton entries last ih =>
    rcases ih with hwell | ⟨before, e, after, cause, rfl, hfirst⟩
    · rcases fits_or_offends options entries last with hfits | ⟨cause, ho⟩
      · exact Or.inl (wellDeclared_concat.2 ⟨hwell, hfits⟩)
      · exact Or.inr ⟨entries, last, [], cause, rfl, hwell, ho⟩
    · exact Or.inr ⟨before, e, after ++ [last], cause, by simp, hfirst⟩

/-- No entry of entries that can all be loaded offends behind those before it. -/
theorem WellDeclared.not_offends {after : List SchemaEntry} {cause : SchemaError}
    (h : WellDeclared options (before ++ e :: after)) : ¬ Offends options before e cause := by
  rw [List.append_cons] at h
  exact (wellDeclared_concat.1 h.of_append).2.not_offends

/-- What an entry declares has the name and the namespace that the entry gives. -/
theorem SchemaEntry.Declares.key_eq (h : e.Declares options d) :
    d.ns = e.ns ∧ e.declaredKey = (d.ns, some d.name) := by
  obtain ⟨table, hvalue, hof⟩ := h
  obtain ⟨name, fields, hname, hmake⟩ := DataType.make_of_ofDeclaration hof
  obtain ⟨_, hdname, hns, _⟩ := DataType.make_accepted hmake
  have hgiven : e.givenName = some name := by
    unfold DataType.declaredName at hname
    split at hname
    · cases hname
    · rename_i text htext
      obtain rfl := Except.ok.inj hname
      simp [SchemaEntry.givenName, hvalue, Value.asTable?, htext, Value.asText?]
    · cases hname
  exact ⟨hns, by rw [SchemaEntry.declaredKey, hgiven, hdname, hns]⟩

end Entries

namespace Registry

/-! ## 3. The walk as a fold -/

/-- What one entry does to a registry, without the entries below it. -/
def visit (options : SchemaOptions) (r : Registry) (e : SchemaEntry) :
    Except SchemaError Registry :=
  match e.value with
  | .table table =>
    if options.isDeclaration e.key then (declare options e.ns e.key table r).result
    else (checkName (.childOf e.ns) e.key).map fun _ => r
  | _ => .error (.wrongValue (.entry e.ns e.key))

mutual

theorem addEntry_result (options : SchemaOptions) : ∀ (v : Value) (ns : Namespace) (key : String)
    (r : Registry), (addEntry options ns key r v).result
      = visit options r ⟨ns, key, v⟩ >>= (entriesBelow options ns key v).foldlM (visit options)
  | .table child, ns, key, r => by
      unfold addEntry entriesBelow visit
      by_cases hmarker : options.isDeclaration key = true
      · simp only [hmarker, if_true]
        cases (declare options ns key child r).result <;> rfl
      · simp only [hmarker]
        cases checkName (.childOf ns) key with
        | error e => rfl
        | ok _ => exact addEntries_result options child (ns.child key) r
  | .text _, _, _, _ => rfl
  | .integer _, _, _, _ => rfl
  | .float _, _, _, _ => rfl
  | .boolean _, _, _, _ => rfl
  | .date _, _, _, _ => rfl
  | .array _, _, _, _ => rfl

/-- **The walk of a table is a fold over its entries and all below them.** -/
theorem addEntries_result (options : SchemaOptions) : ∀ (entries : List (String × Value))
    (ns : Namespace) (r : Registry), (addEntries options ns entries r).result
      = (entriesIn options ns entries).foldlM (visit options) r
  | [], _, _ => rfl
  | (key, v) :: rest, ns, r => by
      have hrest : (fun r => (addEntries options ns rest r).result)
          = (entriesIn options ns rest).foldlM (visit options) :=
        funext fun r => addEntries_result options rest ns r
      unfold addEntries entriesIn
      rw [Logged.andThen_result, addEntry_result options v ns key r, hrest, bind_assoc,
        List.foldlM_cons]
      exact congrArg _ (funext fun r => List.foldlM_append.symm)

end

theorem load_result (options : SchemaOptions) (tree : Table) :
    (load options tree).result = (entriesIn options .root tree).foldlM (visit options) empty := by
  rw [← addEntries_result, load]
  cases h : (addEntries options .root tree empty).result <;> simp [h]

/-! ## 4. Steps and runs -/

/-- The registry holds what the declarations among entries declare, in their order. -/
def Holds (options : SchemaOptions) (entries : List SchemaEntry) (r : Registry) : Prop :=
  List.Forall₂ (fun e d => e.Declares options d ∧ d.ns = e.ns) (declarationsOf options entries)
    r.types

section Steps

variable {options : SchemaOptions} {before : List SchemaEntry} {e : SchemaEntry} {r : Registry}

theorem Holds.mem_keys_iff (h : Holds options before r) {d : DataType}
    (hd : e.Declares options d) : d.key ∈ r.types.map DataType.key
      ↔ e.declaredKey ∈ (declarationsOf options before).map SchemaEntry.declaredKey := by
  have hkeys : (declarationsOf options before).map SchemaEntry.declaredKey
      = r.types.map fun d => (d.ns, some d.name) := by
    rw [← List.forall₂_eq_eq_eq, List.forall₂_map_left_iff, List.forall₂_map_right_iff]
    exact h.imp fun e d hed => hed.1.key_eq.2
  rw [hkeys, hd.key_eq.2]
  simp [DataType.key]

theorem Holds.concat_namespace (h : Holds options before r)
    (hmarker : e.isDeclaration options = false) : Holds options (before ++ [e]) r := by
  rw [Holds, declarationsOf_concat, hmarker, if_neg Bool.false_ne_true, List.append_nil]
  exact h

theorem Holds.concat_declaration (h : Holds options before r)
    (hmarker : e.isDeclaration options = true) {d : DataType} (hd : e.Declares options d)
    {r' : Registry} (htypes : r'.types = r.types ++ [d]) : Holds options (before ++ [e]) r' := by
  rw [Holds, declarationsOf_concat, if_pos hmarker, htypes]
  exact List.rel_append h (.cons ⟨hd, hd.key_eq.1⟩ .nil)

theorem visit_value (h : ∀ table, e.value ≠ .table table) :
    visit options r e = .error (.wrongValue (.entry e.ns e.key)) := by
  unfold visit
  split
  · rename_i table ht
    exact absurd ht (h table)
  · rfl

theorem visit_segment {table : Table} (hvalue : e.value = .table table)
    (hmarker : e.isDeclaration options = false) :
    visit options r e = (checkName (.childOf e.ns) e.key).map fun _ => r := by
  rw [SchemaEntry.isDeclaration] at hmarker
  simp [visit, hvalue, hmarker]

theorem visit_declaration {table : Table} (hvalue : e.value = .table table)
    (hmarker : e.isDeclaration options = true) :
    visit options r e = DataType.ofDeclaration options.rules e.key table e.ns >>= r.register := by
  rw [SchemaEntry.isDeclaration] at hmarker
  simp only [visit, hvalue, hmarker, if_true, declare]
  cases DataType.ofDeclaration options.rules e.key table e.ns with
  | error cause => rfl
  | ok d =>
    show _ = r.register d
    dsimp only
    cases r.register d <;> rfl

/-- **A step at an entry that offends ends the walk.** -/
theorem visit_of_offends (h : Holds options before r) {cause : SchemaError}
    (ho : Offends options before e cause) : visit options r e = .error cause := by
  cases ho with
  | value hvalue => exact visit_value hvalue
  | notIdentifier hvalue hmarker hname =>
    rw [visit_segment hvalue hmarker]
    simp [checkName, nameFault?, hname, Except.map]
  | reserved hvalue hmarker hname hreserved =>
    rw [visit_segment hvalue hmarker]
    simp [checkName, nameFault?, hname, hreserved, Except.map]
  | declaration hvalue hmarker hcause =>
    rw [visit_declaration hvalue hmarker, hcause]
    rfl
  | repeated hmarker hd hbefore =>
    obtain ⟨table, hvalue, hof⟩ := hd
    rw [visit_declaration hvalue hmarker, hof]
    exact dif_pos ((h.mem_keys_iff ⟨table, hvalue, hof⟩).2 hbefore)

/-- **A step at an entry that fits registers what the entry declares.** -/
theorem visit_of_fits (h : Holds options before r) (hfits : Fits options before e) :
    ∃ r', visit options r e = .ok r' ∧ Holds options (before ++ [e]) r' := by
  obtain ⟨table, hvalue⟩ := hfits.table
  cases hmarker : e.isDeclaration options with
  | true =>
    obtain ⟨d, hd⟩ := hfits.accepted hmarker
    have hkey : d.key ∉ r.types.map DataType.key :=
      fun hm => hfits.distinct hmarker ((h.mem_keys_iff hd).1 hm)
    have hregister : r.register d = .ok ⟨r.types ++ [d], nodup_map_concat r.distinct hkey⟩ :=
      dif_neg hkey
    refine ⟨⟨r.types ++ [d], nodup_map_concat r.distinct hkey⟩, ?_,
      h.concat_declaration hmarker hd rfl⟩
    obtain ⟨table', hvalue', hof⟩ := hd
    rw [visit_declaration hvalue' hmarker, hof]
    exact hregister
  | false =>
    obtain ⟨hname, hreserved⟩ := hfits.segment hmarker
    refine ⟨r, ?_, h.concat_namespace hmarker⟩
    rw [visit_segment hvalue hmarker]
    simp [checkName, nameFault?, hname, hreserved, Except.map]

end Steps

/-- **A run over entries that can all be loaded registers what they declare.** -/
theorem visitAll_of_wellDeclared {options : SchemaOptions} {entries : List SchemaEntry}
    (h : WellDeclared options entries) :
    ∃ r, entries.foldlM (visit options) empty = .ok r ∧ Holds options entries r := by
  induction entries using List.reverseRecOn with
  | nil => exact ⟨empty, rfl, List.Forall₂.nil⟩
  | append_singleton entries last ih =>
    obtain ⟨hbefore, hfits⟩ := wellDeclared_concat.1 h
    obtain ⟨r, hrun, hholds⟩ := ih hbefore
    obtain ⟨r', hstep, hlast⟩ := visit_of_fits hholds hfits
    refine ⟨r', ?_, hlast⟩
    rw [List.foldlM_append, hrun]
    exact (congrArg (· >>= pure) hstep).trans rfl

/-- A run ends at the first entry that offends. -/
theorem visitAll_of_offends {options : SchemaOptions} {before : List SchemaEntry}
    {e : SchemaEntry} {cause : SchemaError} (h : WellDeclared options before)
    (ho : Offends options before e cause) (after : List SchemaEntry) :
    (before ++ e :: after).foldlM (visit options) empty = .error cause := by
  obtain ⟨r, hrun, hholds⟩ := visitAll_of_wellDeclared h
  rw [List.foldlM_append, hrun]
  exact congrArg (· >>= after.foldlM (visit options)) (visit_of_offends hholds ho)

/-- A schema tree is loaded if its entries can all be loaded. -/
theorem load_of_wellDeclared {options : SchemaOptions} {tree : Table}
    (h : WellDeclared options (entriesIn options .root tree)) :
    ∃ r, (load options tree).result = .ok r ∧ Holds options (entriesIn options .root tree) r := by
  rw [load_result]
  exact visitAll_of_wellDeclared h

/-- Nothing offends in a schema tree that is loaded. -/
theorem wellDeclared_of_load {options : SchemaOptions} {tree : Table} {r : Registry}
    (h : (load options tree).result = .ok r) : WellDeclared options (entriesIn options .root tree)
      ∧ Holds options (entriesIn options .root tree) r := by
  rcases wellDeclared_or_offends options (entriesIn options .root tree) with
    hwell | ⟨before, e, after, _, hsplit, hwell, ho⟩
  · obtain ⟨r', hr', hholds⟩ := load_of_wellDeclared hwell
    obtain rfl := Except.ok.inj (hr'.symm.trans h)
    exact ⟨hwell, hholds⟩
  · rw [load_result, hsplit, visitAll_of_offends hwell ho after] at h
    cases h

/-- **A schema tree is loaded exactly if its entries can all be loaded; the registry then holds what
they declare, in depth-first order and each in the namespace of the keys above it. Otherwise the
error is that of the first entry that offends, whatever follows it.** -/
theorem load_spec (options : SchemaOptions) (tree : Table) :
    ((∃ r, (load options tree).result = .ok r) ↔
      WellDeclared options (entriesIn options .root tree))
    ∧ (∀ r, (load options tree).result = .ok r → Holds options (entriesIn options .root tree) r)
    ∧ ∀ cause, (load options tree).result = .error cause ↔
      ∃ before e after, entriesIn options .root tree = before ++ e :: after
        ∧ WellDeclared options before ∧ Offends options before e cause := by
  rw [load_result]
  rcases wellDeclared_or_offends options (entriesIn options .root tree) with
    hwell | ⟨before, e, after, first, hsplit, hwell, ho⟩
  · obtain ⟨r, hrun, hholds⟩ := visitAll_of_wellDeclared hwell
    refine ⟨⟨fun _ => hwell, fun _ => ⟨r, hrun⟩⟩, fun r' hr' => ?_, fun cause => ?_⟩
    · rwa [← Except.ok.inj (hrun.symm.trans hr')]
    · constructor
      · intro herror
        cases hrun.symm.trans herror
      · intro hfirst
        obtain ⟨before, e, after, hsplit, _, ho⟩ := hfirst
        rw [hsplit] at hwell
        exact absurd ho hwell.not_offends
  · rw [hsplit, visitAll_of_offends hwell ho after]
    refine ⟨⟨fun hsome => ?_, fun hall => absurd ho hall.not_offends⟩, fun r hr => ?_,
      fun cause => ?_⟩
    · obtain ⟨r, hr⟩ := hsome
      cases hr
    · cases hr
    · constructor
      · intro herror
        obtain rfl := Except.error.inj herror
        exact ⟨before, e, after, rfl, hwell, ho⟩
      · intro hfirst
        obtain ⟨before', e', after', hsplit', hwell', ho'⟩ := hfirst
        rw [← visitAll_of_offends hwell ho after, hsplit']
        exact visitAll_of_offends hwell' ho' after'

/-- The declaration is refused before the walk comes to the segment that is no name. -/
example : (load {} [("md_glyph", .table []), ("1", .table [])]).result.map Registry.types
    = .error (.missingMember "md_glyph" .typeName) := by
  decide +kernel

end Registry

end MasterSchema
