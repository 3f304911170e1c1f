import Mathlib.Algebra.BigOperators.Group.List.Lemmas
import MasterSchema.Proofs.Text.Order
import MasterSchema.Registry.Basic

/-!
# The namespaces of a registry

Namespaces are sorted segment by segment, in the order of lists of texts (`Namespace.le_iff`). A
registry lists the namespaces that hold a data type, each once and in increasing order, and counts
its data types by them.
-/

namespace MasterSchema

/-! ## 1. The order of namespaces -/

namespace Namespace

theorem le_iff (a b : Namespace) : a.le b = true ↔ a.segments ≤ b.segments :=
  Text.namesLe_iff

theorem pairwise_le_mergeSort (nss : List Namespace) :
    (nss.mergeSort le).Pairwise fun a b => a.segments ≤ b.segments :=
  Text.pairwise_le_mergeSort le_iff nss

/-- Namespaces that are sorted, each there once, are strictly increasing. -/
theorem pairwise_lt_mergeSort {nss : List Namespace} (h : nss.Nodup) :
    (nss.mergeSort le).Pairwise fun a b => a.segments < b.segments := by
  have hsegments : Function.Injective Namespace.segments := fun ⟨_⟩ ⟨_⟩ heq => congrArg _ heq
  exact Text.pairwise_lt_mergeSort le_iff (h.map hsegments)

/-- Two lists of the same namespaces, each there once, are the same when sorted. -/
theorem mergeSort_congr {nss nss' : List Namespace} (h : nss.Nodup) (h' : nss'.Nodup)
    (hmem : ∀ ns, ns ∈ nss ↔ ns ∈ nss') : nss.mergeSort le = nss'.mergeSort le := by
  refine List.Perm.eq_of_pairwise ?_ (pairwise_le_mergeSort nss) (pairwise_le_mergeSort nss') ?_
  · rintro ⟨a⟩ ⟨b⟩ _ _ hab hba
    exact congrArg _ (le_antisymm hab hba)
  · exact (List.mergeSort_perm nss le).trans
      (((List.perm_ext_iff_of_nodup h h').2 hmem).trans (List.mergeSort_perm nss' le).symm)

theorem nodup_eraseDups : ∀ nss : List Namespace, nss.eraseDups.Nodup
  | [] => List.nodup_nil
  | ns :: nss => by
      rw [List.eraseDups_cons, List.nodup_cons, List.mem_eraseDups]
      exact ⟨by simp, nodup_eraseDups (nss.filter fun other => !other == ns)⟩
termination_by nss => nss.length
decreasing_by exact Nat.lt_succ_of_le (List.length_filter_le _ _)

end Namespace

/-! ## 2. The namespaces of a registry -/

namespace Registry

theorem mem_namespaces {r : Registry} {ns : Namespace} :
    ns ∈ r.namespaces ↔ ∃ d ∈ r.types, d.ns = ns := by
  simp [namespaces, Namespace.sortedSet]

theorem namespaces_increasing (r : Registry) :
    r.namespaces.Pairwise fun a b => a.segments < b.segments :=
  Namespace.pairwise_lt_mergeSort (Namespace.nodup_eraseDups _)

theorem countIn_eq_count (r : Registry) (ns : Namespace) :
    r.countIn ns = (r.types.map (·.ns)).count ns := by
  rw [countIn, inNamespace, ← List.countP_eq_length_filter, List.count, List.countP_map]
  rfl

/-- The data types of all namespaces are all data types. -/
theorem sum_countIn (r : Registry) : (r.namespaces.map r.countIn).foldr (· + ·) 0 = r.size := by
  have hperm : r.namespaces.Perm (r.types.map (·.ns)).dedup := by
    refine (List.perm_ext_iff_of_nodup ?_ (List.nodup_dedup _)).2 fun ns => ?_
    · exact r.namespaces_increasing.imp fun hlt heq => hlt.ne (congrArg _ heq)
    · rw [mem_namespaces, List.mem_dedup, List.mem_map]
  calc (r.namespaces.map r.countIn).foldr (· + ·) 0
      = (r.namespaces.map r.countIn).sum := List.sum_eq_foldr.symm
    _ = ((r.types.map (·.ns)).dedup.map r.countIn).sum := (hperm.map _).sum_eq
    _ = ((r.types.map (·.ns)).dedup.map fun ns => (r.types.map (·.ns)).count ns).sum := by
        rw [List.map_congr_left fun ns _ => r.countIn_eq_count ns]
    _ = (r.types.map (·.ns)).length := List.sum_map_count_dedup_eq_length _
    _ = r.size := List.length_map _

end Registry

end MasterSchema
