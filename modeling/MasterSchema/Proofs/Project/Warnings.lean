import MasterSchema.Proofs.DataType.Accepted
import MasterSchema.Proofs.IdDomain.Search
import MasterSchema.Proofs.Project.Agreement

/-!
# What a run warns of

Loading a schema and writing artifacts never warn (`quiet_loadRegistry`, `quiet_replaceOutput`). So
the warnings of a run that generates are those of the check of the id domains.

* If an id registry is read, there is one warning for each field whose base type is neither allowed
  nor the name of a domain, in the order of the schema and of the fields (`warnsOfDomains`).
* The allowed types are those that the schema was read with, so only identifiers can be of such a
  base type (`isId_of_load`).
* A run that is refused before the check warns of nothing.
-/

namespace MasterSchema

/-! ## 1. Warnings -/

/-- The warnings of a log, in their order. -/
def warningsIn (log : List Event) : List Event := log.filter (·.level == .warn)

/-- No event is a warning. -/
def Quiet (log : List Event) : Prop := ∀ e ∈ log, e.level ≠ .warn

theorem warningsIn_append (log more : List Event) :
    warningsIn (log ++ more) = warningsIn log ++ warningsIn more :=
  List.filter_append log more

namespace Quiet

variable {log more : List Event}

theorem nil : Quiet [] := fun _ hm => absurd hm List.not_mem_nil

theorem singleton {e : Event} (h : e.level ≠ .warn) : Quiet [e] := by
  intro other hm
  rw [List.mem_singleton.1 hm]
  exact h

theorem append (h : Quiet log) (h' : Quiet more) : Quiet (log ++ more) :=
  List.forall_mem_append.2 ⟨h, h'⟩

theorem warningsIn_eq (h : Quiet log) : warningsIn log = [] :=
  List.filter_eq_nil_iff.2 fun e hm => by simpa using h e hm

/-- A step after another is quiet if both are. -/
theorem andThen {ε α β : Type} {step : Logged ε α} {next : α → Logged ε β} (h : Quiet step.log)
    (hnext : ∀ a, Quiet (next a).log) : Quiet (step.andThen next).log := by
  unfold Logged.andThen
  split
  · exact h
  · exact h.append (hnext _)

end Quiet

/-! ## 2. Steps that never warn -/

namespace Registry

variable {options : SchemaOptions}

theorem quiet_declare (ns : Namespace) (key : String) (table : Table) (r : Registry) :
    Quiet (declare options ns key table r).log := by
  unfold declare
  split
  · exact Quiet.nil
  · split
    · exact Quiet.nil
    · exact Quiet.singleton fun e => nomatch e

mutual

theorem quiet_addEntry : ∀ (v : Value) (ns : Namespace) (key : String) (r : Registry),
    Quiet (addEntry options ns key r v).log
  | .table child, ns, key, r => by
      unfold addEntry
      split
      · exact quiet_declare ns key child r
      · split
        · exact Quiet.nil
        · exact quiet_addEntries child (ns.child key) r
  | .text _, _, _, _ => by unfold addEntry; exact Quiet.nil
  | .integer _, _, _, _ => by unfold addEntry; exact Quiet.nil
  | .float _, _, _, _ => by unfold addEntry; exact Quiet.nil
  | .boolean _, _, _, _ => by unfold addEntry; exact Quiet.nil
  | .date _, _, _, _ => by unfold addEntry; exact Quiet.nil
  | .array _, _, _, _ => by unfold addEntry; exact Quiet.nil

theorem quiet_addEntries : ∀ (entries : List (String × Value)) (ns : Namespace) (r : Registry),
    Quiet (addEntries options ns entries r).log
  | [], _, _ => by unfold addEntries; exact Quiet.nil
  | (key, v) :: rest, ns, r => by
      unfold addEntries
      exact (quiet_addEntry v ns key r).andThen fun between => quiet_addEntries rest ns between

end

theorem quiet_load (tree : Table) : Quiet (load options tree).log := by
  have hwalk : Quiet (addEntries options .root tree .empty).log := quiet_addEntries tree .root .empty
  unfold load
  dsimp only
  split
  · exact hwalk
  · exact hwalk.append (Quiet.singleton fun e => nomatch e)

end Registry

namespace Project

variable {config : Config} {fs : FileSystem}

theorem quiet_loadRegistry (config : Config) (fs : FileSystem) :
    Quiet (loadRegistry config fs).log := by
  unfold loadRegistry
  split
  · exact Quiet.nil
  · rename_i tree _
    have hload : Quiet ((Registry.load config.schemaOptions tree).mapError
        (RunError.schema config.schemaPath)).log := Registry.quiet_load tree
    refine hload.andThen fun r e hm => ?_
    obtain ⟨ns, _, rfl⟩ := List.mem_map.1 hm
    exact fun he => nomatch he

theorem quiet_clearOutput (fs : FileSystem) (dir : Path) : Quiet (clearOutput fs dir).log := by
  unfold clearOutput
  split
  · exact Quiet.singleton fun e => nomatch e
  · exact Quiet.nil
  · exact Quiet.nil

theorem quiet_writeBelow (fs : FileSystem) (dir file : Path) (text : String) :
    Quiet (writeBelow fs dir file text).log := by
  unfold writeBelow
  generalize fs.writeDeep (dir.join file) text.toUTF8 = changed
  obtain ⟨result, t⟩ := changed
  cases result with
  | error fault => exact Quiet.nil
  | ok done => exact Quiet.singleton fun e => nomatch e

theorem quiet_writeArtifacts {dir : Path} (artifacts : List Artifact) (fs : FileSystem) :
    Quiet (writeArtifacts fs dir artifacts).log := by
  induction artifacts generalizing fs with
  | nil => rw [writeArtifacts]; exact Quiet.nil
  | cons a rest ih =>
    have hwritten := quiet_writeBelow fs dir a.path a.text
    rw [writeArtifacts]
    generalize writeBelow fs dir a.path a.text = outcome at hwritten
    obtain ⟨result, t, log⟩ := outcome
    cases result with
    | error fault => exact hwritten
    | ok file => exact hwritten.append (ih (fs.withTree t))

theorem quiet_replaceOutput (config : Config) (fs : FileSystem) (r : Registry) :
    Quiet (replaceOutput config fs r).log := by
  have hcleared := quiet_clearOutput fs config.outputDir
  unfold replaceOutput
  dsimp only
  generalize clearOutput fs config.outputDir = outcome at hcleared
  obtain ⟨result, t, log⟩ := outcome
  cases result with
  | error fault => exact hcleared
  | ok done =>
    have hwritten : Quiet (writeArtifacts (fs.withTree t) config.outputDir
      (Artifact.generateRegistry config.artifactOptions r)).log := quiet_writeArtifacts _ _
    dsimp only
    generalize writeArtifacts (fs.withTree t) config.outputDir
      (Artifact.generateRegistry config.artifactOptions r) = written at hwritten
    obtain ⟨result, t', more⟩ := written
    cases result with
    | error cause => exact hcleared.append hwritten
    | ok done =>
      exact (hcleared.append hwritten).append (Quiet.singleton fun e => nomatch e)

/-! ## 3. The check of the id domains -/

theorem checkDomains_of_missing (h : fs.isFile config.idRegistryPath = false) (r : Registry) :
    checkDomains config fs r = ⟨.ok (), [.idRegistryMissing config.idRegistryPath]⟩ := by
  rw [checkDomains, h]
  rfl

theorem checkDomains_of_read {ids : IdRegistry}
    (h : DataFile.readIdRegistry fs config.idRegistryPath = .ok ids) (r : Registry) :
    checkDomains config fs r = ⟨.ok (),
      .idRegistryLoaded config.idRegistryPath ids.domains.length
        :: (unknownDomains config ids r).map UnknownDomain.event⟩ := by
  rw [checkDomains, isFile_of_readIdRegistry h, if_pos rfl]
  delta DataFile.idRegistry
  rw [h]
  rfl

/-- The fields of all data types in the order of the schema, each with its data type. -/
def fieldsOf (r : Registry) : List (DataType × ResolvedField) :=
  r.types.flatMap fun d => d.fields.map fun field => (d, field)

/-- A field is an identifier whose base type is neither allowed nor the name of a domain. -/
def OfNoDomain (config : Config) (ids : IdRegistry) (field : ResolvedField) : Prop :=
  field.isId = true ∧ field.base ∉ config.schemaOptions.rules.allowedTypes
    ∧ ∀ domain ∈ ids.domains, domain.name ≠ field.base

instance (config : Config) (ids : IdRegistry) (field : ResolvedField) :
    Decidable (OfNoDomain config ids field) :=
  inferInstanceAs (Decidable (_ ∧ _ ∧ _))

theorem lacksDomain_eq (config : Config) (ids : IdRegistry) (field : ResolvedField) :
    lacksDomain config ids field = decide (OfNoDomain config ids field) := by
  rw [Bool.eq_iff_iff, decide_eq_true_iff, OfNoDomain, ← IdRegistry.findByName_eq_none]
  simp [lacksDomain, and_assoc]

/-- **The unknown domains are those of the fields that are of no domain, in their order.** -/
theorem unknownDomains_eq (config : Config) (ids : IdRegistry) (r : Registry) :
    unknownDomains config ids r = ((fieldsOf r).filter fun x => OfNoDomain config ids x.2).map
      fun x => ⟨x.1.name, x.2.name, x.2.base⟩ := by
  rw [unknownDomains, fieldsOf, List.filter_flatMap, List.map_flatMap]
  refine congrArg (r.types.flatMap ·) (funext fun d => ?_)
  rw [List.filter_map, List.map_map]
  refine congrArg (List.map _) (congrArg (d.fields.filter ·) (funext fun field => ?_))
  exact lacksDomain_eq config ids field

/-- A field of a base type that is not allowed is an identifier: the schema was read with these
allowed types. -/
theorem isId_of_load {r : Registry} (h : (loadRegistry config fs).result = .ok r) {d : DataType}
    (hd : d ∈ r.types) {field : ResolvedField} (hfield : field ∈ d.fields)
    (hbase : field.base ∉ config.schemaOptions.rules.allowedTypes) : field.isId = true := by
  obtain ⟨_, _, hload⟩ := loadRegistry_eq_ok.1 h
  obtain ⟨_, _, _, _, hmake⟩ := Registry.made_of_load hload d hd
  have hsettled : field.Settled _ := (DataType.make_accepted hmake).1.settled field hfield
  by_contra hid
  exact hbase (hsettled.plain (Bool.eq_false_iff.2 hid)).1

/-! ## 4. The whole run -/

/-- What a run says in which an id registry is read, or would be. -/
structure WarnsOfDomains (config : Config) (fs : FileSystem) (ids : IdRegistry) : Prop where
  /-- Each field without a domain is warned of once, and nothing else is. -/
  warnings : ∀ r, config.checkOutput fs.working = .ok () →
    (loadRegistry config fs).result = .ok r →
      warningsIn (generate config fs).log = (unknownDomains config ids r).map UnknownDomain.event
  fields : ∀ r, unknownDomains config ids r
    = ((fieldsOf r).filter fun x => OfNoDomain config ids x.2).map
      fun x => ⟨x.1.name, x.2.name, x.2.base⟩
  identifiers : ∀ r, (loadRegistry config fs).result = .ok r → ∀ x ∈ fieldsOf r,
    x.2.base ∉ config.schemaOptions.rules.allowedTypes → x.2.isId = true
  /-- A run that is refused before says nothing of domains. -/
  refused : (∀ r, config.checkOutput fs.working = .ok () →
    (loadRegistry config fs).result ≠ .ok r) → warningsIn (generate config fs).log = []

theorem warningsIn_generate {r : Registry} (haccepted : config.checkOutput fs.working = .ok ())
    (hloaded : (loadRegistry config fs).result = .ok r)
    (hchecked : (checkDomains config fs r).result = .ok ()) :
    warningsIn (generate config fs).log = warningsIn (checkDomains config fs r).log := by
  rw [generate_of_loaded hloaded haccepted hchecked, Outcome.after_log, warningsIn_append,
    warningsIn_append, (quiet_loadRegistry config fs).warningsIn_eq,
    (quiet_replaceOutput config fs r).warningsIn_eq, List.nil_append, List.append_nil]

/-- **If an id registry is read, a run warns of the fields without a domain and of nothing else.** -/
theorem warnsOfDomains {ids : IdRegistry}
    (h : DataFile.readIdRegistry fs config.idRegistryPath = .ok ids) :
    WarnsOfDomains config fs ids where
  warnings r haccepted hloaded := by
    have hchecked := checkDomains_of_read h r
    rw [warningsIn_generate haccepted hloaded (by rw [hchecked]), hchecked]
    refine (List.filter_cons_of_neg Bool.false_ne_true).trans (List.filter_eq_self.2 fun e hm => ?_)
    obtain ⟨u, _, rfl⟩ := List.mem_map.1 hm
    rfl
  fields r := unknownDomains_eq config ids r
  identifiers r hloaded x hx hbase := by
    obtain ⟨d, hd, hx⟩ := List.mem_flatMap.1 hx
    obtain ⟨field, hfield, rfl⟩ := List.mem_map.1 hx
    exact isId_of_load hloaded hd hfield hbase
  refused hrefused := by
    cases haccepted : config.checkOutput fs.working with
    | error cause =>
      rw [generate_of_unaccepted haccepted]
      rfl
    | ok done =>
      cases hloaded : (loadRegistry config fs).result with
      | error e =>
        rw [generate_of_unloaded hloaded haccepted]
        exact (quiet_loadRegistry config fs).warningsIn_eq
      | ok r => exact absurd hloaded (hrefused r haccepted)

end Project

end MasterSchema
