import Mathlib.Data.List.Forall2
import Mathlib.Data.List.Induction
import MasterSchema.Artifact.Basic
import MasterSchema.Proofs.DataType.Accepted

/-!
# Which headers a value class includes

A base type that is stored as another one needs a header. The fields of a data type bring such base
types in any order and any number of times, as identifiers and otherwise.

* One field more brings its base type only if it needs a header and is not there yet
  (`includesOf_concat`).
* So each of them is there once, and they stand in the order in which the fields first have them
  (`firstOccurrences_includesOf`). No other list is in that order (`FirstOccurrences.eq`).
* The base types without a configured header are passed over when the lines are written, and the
  others keep their order (`included_of_make`).
-/

namespace MasterSchema

/-! ## 1. The order of first occurrences -/

/-- The members of a list that are wanted, each once, in the order in which they first occur. -/
structure FirstOccurrences (wanted : String → Prop) (all listed : List String) : Prop where
  mem_iff : ∀ s, s ∈ listed ↔ s ∈ all ∧ wanted s
  order : listed.Pairwise fun s s' => all.idxOf s < all.idxOf s'

namespace FirstOccurrences

variable {wanted : String → Prop} {all listed : List String}

theorem nil : FirstOccurrences wanted [] [] :=
  ⟨fun s => by simp, .nil⟩

theorem nodup (h : FirstOccurrences wanted all listed) : listed.Nodup :=
  h.order.imp fun hlt heq => absurd (congrArg all.idxOf heq) (Nat.ne_of_lt hlt)

/-- What is behind a list changes nothing about first occurrences in it. -/
theorem order_concat (h : FirstOccurrences wanted all listed) (s : String) :
    listed.Pairwise fun a b => (all ++ [s]).idxOf a < (all ++ [s]).idxOf b := by
  refine h.order.imp_of_mem fun {a b} ha hb hlt => ?_
  rwa [List.idxOf_append_of_mem ((h.mem_iff a).1 ha).1,
    List.idxOf_append_of_mem ((h.mem_iff b).1 hb).1]

/-- A member that is not wanted, or has occurred before, is not listed again. -/
theorem concat_old (h : FirstOccurrences wanted all listed) {s : String}
    (hold : wanted s → s ∈ all) : FirstOccurrences wanted (all ++ [s]) listed where
  mem_iff other := by
    rw [h.mem_iff, List.mem_append, List.mem_singleton]
    refine and_congr_left fun hwanted => ⟨Or.inl, fun hor => hor.elim id ?_⟩
    rintro rfl
    exact hold hwanted
  order := h.order_concat s

/-- A wanted member that has not occurred before is listed last. -/
theorem concat_new (h : FirstOccurrences wanted all listed) {s : String} (hwanted : wanted s)
    (hnew : s ∉ all) : FirstOccurrences wanted (all ++ [s]) (listed ++ [s]) where
  mem_iff other := by
    rw [List.mem_append, List.mem_append, List.mem_singleton, h.mem_iff, or_and_right]
    refine or_congr_right ⟨fun heq => ⟨heq, heq ▸ hwanted⟩, And.left⟩
  order := by
    refine List.pairwise_append.2 ⟨h.order_concat s, List.pairwise_singleton _ _, ?_⟩
    intro other ho last hlast
    have hmem := ((h.mem_iff other).1 ho).1
    rw [List.mem_singleton.1 hlast, List.idxOf_append_of_mem hmem,
      List.idxOf_append_of_notMem hnew]
    exact Nat.lt_add_right _ (List.idxOf_lt_length_of_mem hmem)

/-- What is wanted for one more reason keeps the order. -/
theorem filter (h : FirstOccurrences wanted all listed) (also : String → Bool) :
    FirstOccurrences (fun s => wanted s ∧ also s = true) all (listed.filter also) where
  mem_iff s := by rw [List.mem_filter, h.mem_iff, and_assoc]
  order := h.order.filter also

theorem congr {wanted' : String → Prop} (h : FirstOccurrences wanted all listed)
    (hiff : ∀ s, wanted s ↔ wanted' s) : FirstOccurrences wanted' all listed where
  mem_iff s := by rw [h.mem_iff, hiff]
  order := h.order

/-- **There is one list in the order of first occurrences.** -/
theorem eq {other : List String} (h : FirstOccurrences wanted all listed)
    (h' : FirstOccurrences wanted all other) : listed = other := by
  refine List.Perm.eq_of_pairwise ?_ h.order h'.order ?_
  · exact fun a b _ _ hab hba => absurd hba (Nat.lt_asymm hab)
  · refine (List.perm_ext_iff_of_nodup h.nodup h'.nodup).2 fun s => ?_
    rw [h.mem_iff, h'.mem_iff]

end FirstOccurrences

/-! ## 2. Base types that need a header -/

theorem Rules.needsInclude_iff {rules : Rules} {base : String} :
    rules.needsInclude base = true ↔ ∃ stored, (base, stored) ∈ rules.substitutions := by
  unfold needsInclude substitution?
  rw [Option.isSome_map, List.find?_isSome]
  constructor
  · rintro ⟨⟨other, stored⟩, hm, heq⟩
    exact ⟨stored, eq_of_beq heq ▸ hm⟩
  · rintro ⟨stored, hm⟩
    exact ⟨(base, stored), hm, beq_self_eq_true base⟩

namespace DataType

/-- **One field more:** its base type is taken if it needs a header and is not there yet. -/
theorem includesOf_concat (rules : Rules) (fields : List ResolvedField) (field : ResolvedField) :
    includesOf rules (fields ++ [field]) =
      if rules.needsInclude field.base = true ∧ field.base ∉ includesOf rules fields then
        includesOf rules fields ++ [field.base]
      else includesOf rules fields := by
  unfold includesOf
  rw [List.map_append, List.filter_append, List.eraseDups_append]
  simp only [List.mem_eraseDups]
  generalize (fields.map (·.base)).filter rules.needsInclude = earlier
  by_cases hneeds : rules.needsInclude field.base = true
  · by_cases hm : field.base ∈ earlier
    · rw [if_neg fun h => h.2 hm]
      simp [List.removeAll, hneeds, hm]
    · rw [if_pos ⟨hneeds, hm⟩]
      simp [List.removeAll, List.eraseDups_cons, hneeds, hm]
  · rw [if_neg fun h => hneeds h.1]
    simp [List.removeAll, hneeds]

/-- **The base types that need a header are collected in the order of their first fields.** -/
theorem firstOccurrences_includesOf (rules : Rules) (fields : List ResolvedField) :
    FirstOccurrences (rules.needsInclude · = true) (fields.map (·.base))
      (includesOf rules fields) := by
  induction fields using List.reverseRecOn with
  | nil => exact .nil
  | append_singleton fields field ih =>
    rw [List.map_append, List.map_singleton, includesOf_concat]
    split
    · rename_i h
      exact ih.concat_new h.1 fun hm => h.2 ((ih.mem_iff _).2 ⟨hm, h.1⟩)
    · rename_i h
      refine ih.concat_old fun hneeds => Classical.byContradiction fun hm => h ⟨hneeds, ?_⟩
      exact fun hthere => hm ((ih.mem_iff _).1 hthere).1

end DataType

/-! ## 3. The lines -/

/-- A base type's header and the line that includes it. -/
def ArtifactOptions.Includes (options : ArtifactOptions) (base line : String) : Prop :=
  ∃ header, options.typeHeader? base = some header ∧ line = "#include \"" ++ header ++ "\""

theorem ValueClass.includes_headerLines (options : ArtifactOptions) : ∀ bases : List String,
    List.Forall₂ options.Includes (bases.filter fun base => (options.typeHeader? base).isSome)
      ((bases.filterMap options.typeHeader?).map includeLine)
  | [] => .nil
  | base :: rest => by
      have ih := includes_headerLines options rest
      cases hheader : options.typeHeader? base with
      | none =>
        rw [List.filterMap_cons_none hheader, List.filter_cons_of_neg (by simp [hheader])]
        exact ih
      | some header =>
        rw [List.filterMap_cons_some hheader, List.filter_cons_of_pos (by simp [hheader])]
        exact .cons ⟨header, hheader, rfl⟩ ih

/-- The base types of a data type that need a header, and the lines that include the headers. -/
structure DataType.Included (rules : Rules) (d : DataType) : Prop where
  nodup : d.includes.Nodup
  /-- The base types of fields that are stored as another type, in the order of first fields. -/
  includes : ∀ listed, FirstOccurrences (fun base => ∃ stored, (base, stored) ∈ rules.substitutions)
    (d.fields.map (·.base)) listed ↔ listed = d.includes
  /-- The header of identifiers if there is one among the fields, then those of the base types that
  have one configured, again in the order of first fields. -/
  preamble : ∀ options : ArtifactOptions, ∃ bases lines,
    (∀ listed, FirstOccurrences (fun base => (∃ stored, (base, stored) ∈ rules.substitutions)
      ∧ ∃ header, options.typeHeader? base = some header) (d.fields.map (·.base)) listed
        ↔ listed = bases)
    ∧ List.Forall₂ options.Includes bases lines
    ∧ Artifact.preamble options d .valueClass = "#pragma once"
      :: (if ∃ field ∈ d.fields, field.isId = true then ["#include \"" ++ options.idsHeader ++ "\""]
        else []) ++ lines

/-- **A value class includes the header of identifiers if it has any, then the header of every base
type that needs one and has one configured, once, in the order in which the fields first have the
base types.** -/
theorem DataType.included_of_make {rules : Rules} {name : String} {ns : Namespace}
    {fields : List (String × String)} {d : DataType} (h : make rules name ns fields = .ok d) :
    d.Included rules := by
  have hincludes : FirstOccurrences (fun base => ∃ stored, (base, stored) ∈ rules.substitutions)
      (d.fields.map (·.base)) d.includes := by
    rw [includes_of_make h]
    exact (firstOccurrences_includesOf rules d.fields).congr fun _ => Rules.needsInclude_iff
  refine ⟨hincludes.nodup, fun listed => ⟨fun hl => hl.eq hincludes, fun hl => hl ▸ hincludes⟩,
    fun options => ?_⟩
  have hbases := (hincludes.filter fun base => (options.typeHeader? base).isSome).congr fun base =>
    and_congr_right' Option.isSome_iff_exists
  refine ⟨_, _, fun listed => ⟨fun hl => hl.eq hbases, fun hl => hl ▸ hbases⟩,
    ValueClass.includes_headerLines options d.includes, ?_⟩
  have hids : (if ∃ field ∈ d.fields, field.isId = true then
      ["#include \"" ++ options.idsHeader ++ "\""] else [])
        = (if d.hasId then [options.idsHeader] else []).map ValueClass.includeLine := by
    by_cases hid : d.hasId = true
    · rw [if_pos (List.any_eq_true.1 hid), if_pos hid]
      rfl
    · rw [if_neg fun hsome => hid (List.any_eq_true.2 hsome), if_neg hid]
      rfl
  rw [hids]
  exact congrArg _ (List.map_append)

/-- Rules under which three base types are stored as another one. -/
def sceneRules : Rules where
  allowedTypes := ["int", "color", "text", "vector"]
  substitutions := [("color", "s3d::Color"), ("text", "s3d::String"), ("vector", "s3d::Vec2")]

/-- A data type whose base types come again, one of them first as that of an identifier. -/
def scene : DataType where
  name := "Scene"
  ns := .root
  fields :=
    [⟨"id", "int", "int", "int", false, true⟩,
     ⟨"target", "vector", "s3d::Vec2", "s3d::Vec2", false, false⟩,
     ⟨"title", "text", "textID", "textID", true, false⟩,
     ⟨"tint", "color", "s3d::Color", "s3d::Color", false, false⟩,
     ⟨"origin", "vector", "s3d::Vec2", "s3d::Vec2", false, false⟩,
     ⟨"caption", "text", "s3d::String", "s3d::String", false, false⟩]
  primaryKey := ⟨"id", "int", "int", "int", false, true⟩
  includes := ["vector", "text", "color"]

theorem scene_made : DataType.make sceneRules "Scene" .root [("id", "int:PKey"),
    ("target", "vector"), ("title", "text:ID"), ("tint", "color"), ("origin", "vector"),
    ("caption", "text")] = .ok scene := by
  decide +kernel

theorem DataType.included_scene : scene.Included sceneRules
    ∧ Artifact.preamble { typeHeaders := [("text", "Text.hpp"), ("vector", "Vector.hpp")] } scene
      .valueClass = ["#pragma once", "#include \"IDs.hpp\"", "#include \"Vector.hpp\"",
        "#include \"Text.hpp\""] :=
  ⟨included_of_make scene_made, by decide +kernel⟩

end MasterSchema
