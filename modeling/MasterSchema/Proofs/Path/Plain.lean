import MasterSchema.Proofs.Path.Parts

/-!
# Plain paths and extensions

A plain path is one whose text is names between single slashes; it is relative, and its steps are
its parts (`Plain.steps_eq`). A path that is joined from names has them as its parts
(`parts_ofParts`). What stands behind the last dot of a name is its extension
(`cutAtDot_eq`).
-/

namespace MasterSchema.Path

/-! ## 1. Plain paths -/

/-- Every part of the text is a name. -/
def Plain (p : Path) : Prop :=
  ∀ part ∈ p.parts, component? part = some (.name part)

theorem isAbsolute_of_head {p : Path} (h : ∀ part ∈ p.parts, part ≠ "") :
    p.isAbsolute = false := by
  rw [Bool.eq_false_iff]
  intro ha
  obtain ⟨rest, _, hp⟩ := (isAbsolute_iff p).1 ha
  exact h "" (hp ▸ List.mem_cons_self) rfl

theorem endsInSlash_of_last {p : Path} (h : ∀ part ∈ p.parts, part ≠ "") :
    p.endsInSlash = false := by
  rw [Bool.eq_false_iff]
  intro he
  obtain ⟨front, _, hp⟩ := endsInSlash_spec he
  exact h "" (hp ▸ List.mem_append_right _ List.mem_cons_self) rfl

theorem text_ne_of_parts {p : Path} (h : ∀ part ∈ p.parts, part ≠ "") : p.text ≠ "" := by
  obtain ⟨text⟩ := p
  rintro rfl
  exact h "" List.mem_cons_self rfl

/-- Behind a directory a relative path of names leads to them below the directory's place. -/
theorem fold?_join_names {p : Path} (hrelative : p.isAbsolute = false) {names : List String}
    (hsteps : p.steps = names.map Component.name) {dir : Path} {working place : Location}
    (hd : dir.fold? working = some place) :
    (dir.join p).fold? working = some (place ++ names) := by
  have hne : dir.text ≠ "" := text_ne_of_fold? hd
  rw [Path.fold?_eq hne] at hd
  rw [Path.fold?_eq (text_ne_join hne p), steps_join hrelative, hsteps, List.foldl_append,
    foldl_foldStep_names, origin, isAbsolute_join hrelative, ← origin, Option.some.inj hd]

namespace Plain

variable {p : Path}

theorem ne_empty (h : p.Plain) {part : String} (hp : part ∈ p.parts) : part ≠ "" := by
  rintro rfl
  exact nomatch h "" hp

theorem part_spec (h : p.Plain) {part : String} (hp : part ∈ p.parts) :
    part ≠ "" ∧ part ≠ "." ∧ part ≠ ".." ∧ '/' ∉ part.toList := by
  refine ⟨h.ne_empty hp, ?_, ?_, slash_not_mem_of_mem_parts hp⟩
  · rintro rfl
    exact nomatch h "." hp
  · rintro rfl
    exact nomatch h ".." hp

theorem relative (h : p.Plain) : p.isAbsolute = false :=
  isAbsolute_of_head fun _ hp => h.ne_empty hp

theorem steps_eq (h : p.Plain) : p.steps = p.parts.map Component.name := by
  have hmap : ∀ l : List String, (∀ part ∈ l, component? part = some (.name part)) →
      l.filterMap component? = l.map Component.name := by
    intro l hl
    induction l with
    | nil => rfl
    | cons part l ih =>
      rw [List.filterMap_cons_some (hl part List.mem_cons_self), List.map_cons,
        ih fun other ho => hl other (List.mem_cons_of_mem _ ho)]
  exact hmap p.parts h

theorem fold?_eq (h : p.Plain) (place : Location) : p.fold? place = some (place ++ p.parts) := by
  rw [Path.fold?_eq (text_ne_of_parts fun _ hp => h.ne_empty hp), h.steps_eq, foldl_foldStep_names,
    origin, h.relative]
  rfl

/-- The components of a plain path are its parts, for no part is `.`. -/
theorem components_eq (h : p.Plain) : p.components = p.parts.map Component.name := by
  have hdot : (p.parts.head? == some ".") = false := by
    rw [beq_eq_false_iff_ne]
    exact fun e => nomatch h "." (List.mem_of_head? e)
  rw [components, h.relative, hdot]
  exact h.steps_eq

/-- Behind any base a plain path adds its components, and those of the base stay. -/
theorem components_join (h : p.Plain) (base : Path) :
    (base.join p).components = base.components ++ p.components := by
  have hsteps : (base.join p).steps = base.steps ++ p.components := by
    rw [steps_join h.relative, h.steps_eq, h.components_eq]
  by_cases hb : base.text = ""
  · obtain ⟨base⟩ := base
    obtain rfl : base = "" := hb
    rw [join, if_neg (by rw [h.relative]; exact Bool.false_ne_true), if_pos (by simp),
      String.empty_append]
    rfl
  · -- a slash at the end of the base leaves its first part where it is
    have hhead : (base.join p).parts.head? = base.parts.head? := by
      rw [parts_join h.relative hb]
      split
      · rename_i hs
        obtain ⟨front, _, hfront⟩ := endsInSlash_spec hs
        rw [hfront, List.dropLast_concat, List.head?_append_of_ne_nil _ (parts_ne_nil _),
          List.head?_append_of_ne_nil _ (parts_ne_nil _)]
      · exact List.head?_append_of_ne_nil _ (parts_ne_nil _)
    have hread : ∀ q : Path, q.components = if q.isAbsolute then .root :: q.steps
        else if q.parts.head? == some "." then .here :: q.steps else q.steps := fun _ => rfl
    rw [hread (base.join p), isAbsolute_join h.relative, hhead, hsteps, hread base]
    split
    · rfl
    · split <;> rfl

/-- Behind a directory a plain path leads to its parts below the directory's place. -/
theorem fold?_join (h : p.Plain) {dir : Path} {working place : Location}
    (hd : dir.fold? working = some place) :
    (dir.join p).fold? working = some (place ++ p.parts) :=
  fold?_join_names h.relative h.steps_eq hd

end Plain

/-! ## 2. Joining names -/

/-- A single name is a relative path. -/
theorem isAbsolute_name {name : String} (hne : name ≠ "") (hslash : '/' ∉ name.toList) :
    (Path.mk name).isAbsolute = false := by
  refine isAbsolute_of_head fun part hm => ?_
  rw [parts_of_not_mem hslash, List.mem_singleton] at hm
  rw [hm]
  exact hne

theorem parts_join_name {base : Path} (hb : ∀ part ∈ base.parts, part ≠ "") {name : String}
    (hne : name ≠ "") (hslash : '/' ∉ name.toList) :
    (base.join ⟨name⟩).parts = base.parts ++ [name] := by
  rw [parts_join (isAbsolute_name hne hslash) (text_ne_of_parts hb), endsInSlash_of_last hb,
    parts_of_not_mem hslash]
  rfl

/-- **The parts of a path that is joined from names are the names.** -/
theorem parts_ofParts {names : List String} (hne : names ≠ [])
    (h : ∀ name ∈ names, name ≠ "" ∧ '/' ∉ name.toList) : (ofParts names).parts = names := by
  induction names using List.reverseRecOn with
  | nil => exact absurd rfl hne
  | append_singleton names name ih =>
    obtain ⟨hn, hs⟩ := h name (List.mem_append_right _ List.mem_cons_self)
    have hfront : ∀ other ∈ names, other ≠ "" ∧ '/' ∉ other.toList := fun other ho =>
      h other (List.mem_append_left _ ho)
    have hjoin : ofParts (names ++ [name]) = (ofParts names).join ⟨name⟩ := by
      rw [ofParts, List.foldl_append]
      rfl
    rw [hjoin]
    by_cases hempty : names = []
    · subst hempty
      have hdir : (ofParts []).join ⟨name⟩ = ⟨name⟩ := by
        rw [join, if_neg (by rw [isAbsolute_name hn hs]; exact Bool.false_ne_true)]
        exact congrArg Path.mk (String.empty_append (s := name))
      rw [hdir, parts_of_not_mem hs]
      rfl
    · have hparts := ih hempty hfront
      rw [parts_join_name (fun part hm => (hfront part (hparts ▸ hm)).1) hn hs, hparts]

/-! ## 3. Extensions -/

/-- **A name with an extension is cut before it**, unless nothing stands before it. -/
theorem cutAtDot_eq (front : String) {extension : String} (h : '.' ∉ extension.toList) :
    cutAtDot (front ++ "." ++ extension)
      = if front = "" then (front ++ "." ++ extension, none) else (front, some extension) := by
  have hlist : (front ++ "." ++ extension).toList
      = front.toList ++ '.' :: extension.toList := by simp
  have htail : ((front ++ "." ++ extension).toList.reverse.takeWhile (· != '.')).reverse
      = extension.toList := by
    have hall : ∀ c ∈ extension.toList.reverse, (c != '.') = true := fun c hc =>
      bne_iff_ne.2 fun e => h (e ▸ List.mem_reverse.1 hc)
    rw [hlist, List.reverse_append, List.reverse_cons, List.append_assoc,
      List.takeWhile_append_of_pos hall]
    simp
  have hlen := congrArg List.length htail
  rw [List.length_reverse] at hlen
  have hhead : (front ++ "." ++ extension).toList.take ((front ++ "." ++ extension).toList.length
      - ((front ++ "." ++ extension).toList.reverse.takeWhile (· != '.')).length - 1)
      = front.toList := by
    rw [hlen, hlist, List.length_append, List.length_cons]
    have hn : front.toList.length + (extension.toList.length + 1) - extension.toList.length - 1
        = front.toList.length := by omega
    rw [hn, List.take_left' rfl]
  unfold cutAtDot
  dsimp only
  rw [hhead]
  by_cases hf : front = ""
  · rw [if_pos hf, if_pos (by rw [hf]; rfl)]
  · have hne : front.toList.isEmpty = false := by
      rw [List.isEmpty_eq_false_iff]
      exact fun e => hf (String.toList_eq_nil_iff.1 e)
    rw [if_neg hf, if_neg (by rw [hne]; exact Bool.false_ne_true), htail, String.ofList_toList,
      String.ofList_toList]

theorem cutAtDot_append (front : String) {extension : String} (h : '.' ∉ extension.toList) :
    (cutAtDot (front ++ "." ++ extension)).2 = if front = "" then none else some extension := by
  rw [cutAtDot_eq front h]
  split <;> rfl

/-- A name is cut at a dot: it is what stands before and behind it. -/
theorem eq_of_cutAtDot {name extension : String} (h : (cutAtDot name).2 = some extension) :
    name = (cutAtDot name).1 ++ "." ++ extension := by
  by_cases hdot : '.' ∈ name.toList
  · obtain ⟨behind, before, hreverse, hlast⟩ :=
      List.eq_append_cons_of_mem (List.mem_reverse.2 hdot)
    have hname : name = String.ofList before.reverse ++ "." ++ String.ofList behind.reverse := by
      rw [← String.toList_inj, ← List.reverse_inj, hreverse]
      simp
    have hbehind : '.' ∉ (String.ofList behind.reverse).toList := by simpa using hlast
    have hcut := cutAtDot_eq (String.ofList before.reverse) hbehind
    rw [← hname] at hcut
    rw [hcut] at h ⊢
    split at h
    · cases h
    · rename_i hne
      obtain rfl := Option.some.inj h
      rwa [if_neg hne]
  · have hall : name.toList.reverse.takeWhile (· != '.') = name.toList.reverse :=
      List.takeWhile_eq_self_iff.2 fun c hc =>
        bne_iff_ne.2 fun e => hdot (e ▸ List.mem_reverse.1 hc)
    simp [cutAtDot, hall] at h

end MasterSchema.Path
