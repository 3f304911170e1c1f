import Mathlib.Data.List.Nodup
import MasterSchema.Proofs.DataType.Accepted

/-!
# Registries that are built, and what is found in them

A registry is filled by registering data types that were accepted (`Built`); loading a schema tree
is one way to do so (`built_of_load`). A lookup finds the one data type of a name in a namespace
(`find_eq_ok`), and it fails exactly where there is none (`find_eq_error`).
-/

namespace MasterSchema.Registry

/-! ## 1. Building -/

/-- The registries that come about by registering accepted data types one after the other. -/
inductive Built : Registry → Prop
  | empty : Built empty
  | register {r r' : Registry} {rules : Rules} {name : String} {ns : Namespace}
      {fields : List (String × String)} {d : DataType} (h : Built r)
      (hmake : DataType.make rules name ns fields = .ok d) (hregister : r.register d = .ok r') :
      Built r'

/-- Every data type of a registry that is built was accepted under some rules. -/
theorem Built.accepted {r : Registry} (h : r.Built) :
    ∀ d ∈ r.types, ∃ rules, d.Accepted rules := by
  induction h with
  | empty => intro d hd; exact absurd hd List.not_mem_nil
  | register _ hmake hregister ih =>
    intro other ho
    rw [register_eq_ok hregister] at ho
    rcases List.mem_append.1 ho with ho | ho
    · exact ih other ho
    · rw [List.mem_singleton.1 ho]
      exact ⟨_, (DataType.make_accepted hmake).1⟩

/-- **A loaded registry is built.** -/
theorem built_of_load {options : SchemaOptions} {tree : Table} {r : Registry}
    (h : (load options tree).result = .ok r) : r.Built := by
  refine load_induction (motive := Built) ?_ .empty h
  intro ns key table r r' _ hr hd
  obtain ⟨d, hof, hregister⟩ := register_of_declare hd
  obtain ⟨_, _, _, hmake⟩ := DataType.make_of_ofDeclaration hof
  exact hr.register hmake hregister

/-! ## 2. Lookup -/

/-- The data types of a registry are told apart by name and namespace. -/
theorem eq_of_key_eq {r : Registry} {d d' : DataType} (hd : d ∈ r.types) (hd' : d' ∈ r.types)
    (h : d.key = d'.key) : d = d' :=
  List.inj_on_of_nodup_map r.distinct hd hd' h

theorem mem_inNamespace {r : Registry} {ns : Namespace} {d : DataType} :
    d ∈ r.inNamespace ns ↔ d ∈ r.types ∧ d.ns = ns := by
  simp [inNamespace]

/-- **What is found has the name and the namespace that were asked for.** -/
theorem find_eq_ok {r : Registry} {name : String} {ns : Namespace} {d : DataType} :
    r.find name ns = .ok d ↔ d ∈ r.types ∧ d.ns = ns ∧ d.name = name := by
  unfold find
  split
  · rename_i found hfound
    have hname : found.name = name := by simpa using List.find?_some hfound
    obtain ⟨hm, hns⟩ := mem_inNamespace.1 (List.mem_of_find?_eq_some hfound)
    constructor
    · intro h
      obtain rfl := Except.ok.inj h
      exact ⟨hm, hns, hname⟩
    · intro h
      obtain ⟨hd, hns', hname'⟩ := h
      have hkey : found.key = d.key := by simp [DataType.key, hns, hns', hname, hname']
      rw [eq_of_key_eq hm hd hkey]
  · rename_i hnone
    have hmissing : ¬ (d ∈ r.types ∧ d.ns = ns ∧ d.name = name) := by
      intro h
      obtain ⟨hd, hns, hname⟩ := h
      exact List.find?_eq_none.1 hnone d (mem_inNamespace.2 ⟨hd, hns⟩) (beq_iff_eq.2 hname)
    constructor
    · intro h
      split at h <;> cases h
    · intro h
      exact absurd h hmissing

/-- Why nothing is found under a name in a namespace. -/
def lookupError (r : Registry) (name : String) (ns : Namespace) : LookupError :=
  if ∃ d ∈ r.types, d.ns = ns then .unknownDataType ns name else .unknownNamespace ns

theorem find_eq_error {r : Registry} {name : String} {ns : Namespace} {e : LookupError} :
    r.find name ns = .error e ↔
      (¬ ∃ d ∈ r.types, d.ns = ns ∧ d.name = name) ∧ e = r.lookupError name ns := by
  cases hfind : r.find name ns with
  | ok d =>
    have hthere : ∃ d ∈ r.types, d.ns = ns ∧ d.name = name := ⟨d, find_eq_ok.1 hfind⟩
    exact ⟨(fun h => nomatch h), fun h => absurd hthere h.1⟩
  | error cause =>
    have hmissing : ¬ ∃ d ∈ r.types, d.ns = ns ∧ d.name = name := by
      intro hsome
      obtain ⟨d, hd⟩ := hsome
      cases hfind.symm.trans (find_eq_ok.2 hd)
    have hcause : cause = r.lookupError name ns := by
      have hempty : (r.inNamespace ns).isEmpty = true ↔ ¬ ∃ d ∈ r.types, d.ns = ns := by
        simp [inNamespace]
      unfold find at hfind
      unfold lookupError
      split at hfind
      · cases hfind
      · split at hfind
        · rename_i h
          rw [if_neg (hempty.1 h)]
          exact (Except.error.inj hfind).symm
        · rename_i h
          rw [if_pos (not_not.1 fun hn => h (hempty.2 hn))]
          exact (Except.error.inj hfind).symm
    rw [hcause]
    exact ⟨fun h => ⟨hmissing, (Except.error.inj h).symm⟩, fun h => congrArg _ h.2.symm⟩

theorem find_eq_unknownNamespace {r : Registry} {name : String} {ns : Namespace} :
    r.find name ns = .error (.unknownNamespace ns) ↔ ¬ ∃ d ∈ r.types, d.ns = ns := by
  rw [find_eq_error, lookupError]
  by_cases hns : ∃ d ∈ r.types, d.ns = ns
  · simp [hns]
  · rw [if_neg hns]
    exact ⟨fun _ => hns, fun _ => ⟨fun ⟨d, hd, hdns, _⟩ => hns ⟨d, hd, hdns⟩, rfl⟩⟩

theorem find_eq_unknownDataType {r : Registry} {name : String} {ns : Namespace} :
    r.find name ns = .error (.unknownDataType ns name) ↔
      (∃ d ∈ r.types, d.ns = ns) ∧ ¬ ∃ d ∈ r.types, d.ns = ns ∧ d.name = name := by
  rw [find_eq_error, lookupError]
  by_cases hns : ∃ d ∈ r.types, d.ns = ns
  · rw [if_pos hns, and_comm]
    exact and_congr_left fun _ => iff_of_true rfl hns
  · rw [if_neg hns]
    exact ⟨(fun h => nomatch h.2), fun h => absurd h.1 hns⟩

end MasterSchema.Registry
