import MasterSchema.Registry.Load

/-!
# The names of loaded data types

Every data type that a schema tree declares has a name that was checked, and so has every segment
of its namespace.

* `load_induction` is the induction on the walk of a schema tree: what every declaration keeps
  holds of the registry that is loaded;
* `named_of_load` is its first use.
-/

namespace MasterSchema

/-- What is computed of a result is computed of something. -/
theorem exists_of_map_eq_ok {ε α β : Type} {result : Except ε α} {view : α → β} {b : β}
    (h : result.map view = .ok b) : ∃ a, result = .ok a ∧ view a = b := by
  cases result with
  | error e => cases h
  | ok a => exact ⟨a, rfl, Except.ok.inj h⟩

/-! ## 1. Checked names -/

theorem checkName_eq_ok {place : NamePlace} {name : String} (h : checkName place name = .ok ()) :
    nameFault? name = none := by
  unfold checkName at h
  split at h
  · cases h
  · assumption

theorem isIdentifier_of_nameFault? {name : String} (h : nameFault? name = none) :
    isIdentifier name = true := by
  unfold nameFault? at h
  split at h
  · cases h
  · rename_i hi
    simpa using hi

theorem isIdentifierPart_of_start {c : Char} (h : isIdentifierStart c = true) :
    isIdentifierPart c = true := by
  unfold isIdentifierStart at h
  unfold isIdentifierPart Char.isAlphanum
  rcases Bool.or_eq_true_iff.1 h with halpha | hunderscore
  · simp [halpha]
  · simp [hunderscore]

/-- All characters of an identifier are letters, digits and underscores. -/
theorem isIdentifierPart_of_mem {name : String} (h : isIdentifier name = true) :
    ∀ c ∈ name.toList, isIdentifierPart c = true := by
  unfold isIdentifier at h
  split at h
  · cases h
  · rename_i first rest hcs
    obtain ⟨hfirst, hrest⟩ := Bool.and_eq_true_iff.1 h
    rw [hcs]
    intro c hc
    rcases List.mem_cons.1 hc with rfl | hc
    · exact isIdentifierPart_of_start hfirst
    · exact List.all_eq_true.1 hrest c hc

theorem not_mem_of_isIdentifier {name : String} (h : isIdentifier name = true) {c : Char}
    (hc : isIdentifierPart c = false) : c ∉ name.toList := by
  intro hm
  rw [isIdentifierPart_of_mem h c hm] at hc
  cases hc

/-- Behind a name, letters, digits and underscores make a name again, and nothing else does. -/
theorem isIdentifier_append {name ending : String} (hne : name ≠ "")
    (hending : ∀ c ∈ ending.toList, isIdentifierPart c = true) :
    isIdentifier (name ++ ending) = true ↔ isIdentifier name = true := by
  have hall : ending.toList.all isIdentifierPart = true := List.all_eq_true.2 hending
  obtain ⟨first, rest, hchars⟩ : ∃ first rest, name.toList = first :: rest :=
    List.exists_cons_of_ne_nil fun hnil => hne (String.toList_eq_nil_iff.1 hnil)
  simp [isIdentifier, String.toList_append, hchars, hall]

/-- An identifier has a first character, and none of its characters is a slash or a dot. -/
theorem isIdentifier_spec {name : String} (h : isIdentifier name = true) :
    name ≠ "" ∧ '/' ∉ name.toList ∧ '.' ∉ name.toList := by
  refine ⟨?_, not_mem_of_isIdentifier h (by decide), not_mem_of_isIdentifier h (by decide)⟩
  rintro rfl
  cases h

/-- All segments of a namespace are checked names. -/
def Namespace.Named (ns : Namespace) : Prop :=
  ∀ segment ∈ ns.segments, nameFault? segment = none

/-- The name of a data type and its namespace are checked. -/
structure DataType.Named (d : DataType) : Prop where
  name : nameFault? d.name = none
  ns : d.ns.Named

theorem Namespace.Named.child {ns : Namespace} (h : ns.Named) {segment : String}
    (hs : nameFault? segment = none) : (ns.child segment).Named := by
  intro other ho
  rcases List.mem_append.1 ho with ho | ho
  · exact h other ho
  · rw [List.mem_singleton.1 ho]; exact hs

/-! ## 2. Declarations -/

/-- What a data type that is made has passed, and what it is made of. -/
theorem DataType.make_eq_ok {rules : Rules} {name : String} {ns : Namespace}
    {fields : List (String × String)} {d : DataType} (h : make rules name ns fields = .ok d) :
    checkName .dataType name = .ok () ∧ resolveAll rules fields = .ok d.fields
      ∧ checkAccessors name ns [] d.fields = .ok ()
      ∧ onlyPrimaryKey name ns d.fields = .ok d.primaryKey ∧ d.name = name ∧ d.ns = ns := by
  unfold make at h
  split at h
  · cases h
  · rename_i hname
    split at h
    · cases h
    · rename_i hresolved
      split at h
      · cases h
      · rename_i haccessors
        split at h
        · cases h
        · rename_i hkey
          obtain rfl := Except.ok.inj h
          exact ⟨hname, hresolved, haccessors, hkey, rfl, rfl⟩

/-- What a declaration table declares is made from the name that it gives and from fields. -/
theorem DataType.make_of_ofDeclaration {rules : Rules} {declaration : String} {table : Table}
    {ns : Namespace} {d : DataType} (h : ofDeclaration rules declaration table ns = .ok d) :
    ∃ name fields, declaredName declaration table = .ok name
      ∧ make rules name ns fields = .ok d := by
  unfold ofDeclaration at h
  split at h
  · cases h
  · rename_i hname
    split at h
    · cases h
    · split at h
      · cases h
      · exact ⟨_, _, hname, h⟩

namespace Registry

theorem register_eq_ok {r r' : Registry} {d : DataType} (h : r.register d = .ok r') :
    r'.types = r.types ++ [d] := by
  unfold register at h
  split at h
  · cases h
  · rw [← Except.ok.inj h]

/-- A declaration that is accepted registers the data type it declares. -/
theorem register_of_declare {options : SchemaOptions} {ns : Namespace} {key : String}
    {table : Table} {r r' : Registry} (h : (declare options ns key table r).result = .ok r') :
    ∃ d, DataType.ofDeclaration options.rules key table ns = .ok d ∧ r.register d = .ok r' := by
  unfold declare at h
  split at h
  · cases h
  · rename_i d hd
    split at h
    · cases h
    · rename_i hr
      exact ⟨d, hd, hr.trans (congrArg _ (Except.ok.inj h))⟩

/-- What a declaration that is accepted does to the registry. -/
theorem declare_eq_ok {options : SchemaOptions} {ns : Namespace} {key : String} {table : Table}
    {r r' : Registry} (h : (declare options ns key table r).result = .ok r') :
    ∃ d, DataType.ofDeclaration options.rules key table ns = .ok d
      ∧ r'.types = r.types ++ [d] := by
  obtain ⟨d, hd, hr⟩ := register_of_declare h
  exact ⟨d, hd, register_eq_ok hr⟩

/-! ## 3. The walk -/

/-- What holds of a registry still holds after a declaration that is accepted. -/
def KeptByDeclarations (options : SchemaOptions) (motive : Registry → Prop) : Prop :=
  ∀ ns key table r r', ns.Named → motive r →
    (declare options ns key table r).result = .ok r' → motive r'

mutual

theorem addEntry_induction {options : SchemaOptions} {motive : Registry → Prop}
    (hkept : KeptByDeclarations options motive) : ∀ (v : Value) (ns : Namespace) (key : String)
      (r r' : Registry), ns.Named → motive r → (addEntry options ns key r v).result = .ok r' →
        motive r'
  | .table child, ns, key, r, r', hns, hr, h => by
      unfold addEntry at h
      split at h
      · exact hkept ns key child r r' hns hr h
      · split at h
        · cases h
        · rename_i hk
          exact addEntries_induction hkept child (ns.child key) r r'
            (hns.child (checkName_eq_ok hk)) hr h
  | .text _, _, _, _, _, _, _, h => by unfold addEntry at h; cases h
  | .integer _, _, _, _, _, _, _, h => by unfold addEntry at h; cases h
  | .float _, _, _, _, _, _, _, h => by unfold addEntry at h; cases h
  | .boolean _, _, _, _, _, _, _, h => by unfold addEntry at h; cases h
  | .date _, _, _, _, _, _, _, h => by unfold addEntry at h; cases h
  | .array _, _, _, _, _, _, _, h => by unfold addEntry at h; cases h

theorem addEntries_induction {options : SchemaOptions} {motive : Registry → Prop}
    (hkept : KeptByDeclarations options motive) : ∀ (entries : List (String × Value))
      (ns : Namespace) (r r' : Registry), ns.Named → motive r →
        (addEntries options ns entries r).result = .ok r' → motive r'
  | [], _, r, r', _, hr, h => by
      unfold addEntries at h
      rw [← Except.ok.inj h]
      exact hr
  | (key, v) :: rest, ns, r, r', hns, hr, h => by
      unfold addEntries at h
      obtain ⟨between, hv, hrest⟩ := Logged.andThen_eq_ok.1 h
      exact addEntries_induction hkept rest ns between r' hns
        (addEntry_induction hkept v ns key r between hns hr hv) hrest

end

/-- **What every accepted declaration keeps holds of a loaded registry.** -/
theorem load_induction {options : SchemaOptions} {motive : Registry → Prop}
    (hkept : KeptByDeclarations options motive) (hstart : motive empty) {tree : Table}
    {r : Registry} (h : (load options tree).result = .ok r) : motive r := by
  unfold load at h
  dsimp only at h
  split at h
  · exact addEntries_induction hkept tree .root empty r (fun _ hs => nomatch hs) hstart h
  · cases h

/-- Every data type of a loaded registry was made under its rules, in a namespace of checked
names. -/
theorem made_of_load {options : SchemaOptions} {tree : Table} {r : Registry}
    (h : (load options tree).result = .ok r) : ∀ d ∈ r.types, ∃ name ns fields,
      ns.Named ∧ DataType.make options.rules name ns fields = .ok d := by
  refine load_induction (motive := fun r => ∀ d ∈ r.types, ∃ name ns fields,
    ns.Named ∧ DataType.make options.rules name ns fields = .ok d) ?_ ?_ h
  · intro ns key table r r' hns hr hd
    obtain ⟨d, hof, htypes⟩ := declare_eq_ok hd
    obtain ⟨name, fields, _, hmake⟩ := DataType.make_of_ofDeclaration hof
    intro other ho
    rw [htypes] at ho
    rcases List.mem_append.1 ho with ho | ho
    · exact hr other ho
    · rw [List.mem_singleton.1 ho]
      exact ⟨name, ns, fields, hns, hmake⟩
  · intro d hd
    exact absurd hd List.not_mem_nil

/-- **All data types of a loaded registry have checked names and namespaces.** -/
theorem named_of_load {options : SchemaOptions} {tree : Table} {r : Registry}
    (h : (load options tree).result = .ok r) : ∀ d ∈ r.types, d.Named := by
  intro d hd
  obtain ⟨_, _, _, hns, hmake⟩ := made_of_load h d hd
  obtain ⟨hname, _, _, _, rfl, rfl⟩ := DataType.make_eq_ok hmake
  exact ⟨checkName_eq_ok hname, hns⟩

end Registry

end MasterSchema
