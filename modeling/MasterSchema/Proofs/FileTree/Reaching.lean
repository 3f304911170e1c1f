import MasterSchema.Proofs.FileTree.Resolution
import MasterSchema.Proofs.Path.Plain

/-!
# Paths that lead to a place

A path leads to a place if its parts are walked there and nothing is wrong with its text but
perhaps its length (`LeadsTo`). Then what stands there is found, unless the path is too long
(`LeadsTo.find`). From a directory a file name leads on (`LeadsTo.join`), so what stands below a
directory that is found is led to as well.
-/

namespace MasterSchema

/-! ## 1. File names -/

/-- What makes a name a file name. -/
structure FileName (name : String) : Prop where
  ne_empty : name ≠ ""
  ne_here : name ≠ "."
  ne_up : name ≠ ".."
  slash : '/' ∉ name.toList
  zero : '\x00' ∉ name.toList
  short : name.utf8ByteSize ≤ maxNameBytes

theorem fileName_of_isFileName {name : String} (h : isFileName name = true) : FileName name := by
  simp only [isFileName, Bool.and_eq_true, bne_iff_ne, List.all_eq_true, decide_eq_true_eq] at h
  obtain ⟨⟨⟨⟨hne, hhere⟩, hup⟩, hchars⟩, hshort⟩ := h
  exact ⟨hne, hhere, hup, fun hm => (hchars '/' hm).1 rfl, fun hm => (hchars '\x00' hm).2 rfl,
    hshort⟩

namespace FileName

variable {name : String}

theorem vacuous (h : FileName name) : Path.isVacuous name = false := by
  simp [Path.isVacuous, h.ne_empty, h.ne_here]

theorem component? (h : FileName name) : Path.component? name = some (.name name) :=
  Path.component?_of_name h.ne_empty h.ne_here h.ne_up

theorem parts (h : FileName name) : (Path.mk name).parts = [name] :=
  Path.parts_of_not_mem h.slash

theorem steps (h : FileName name) : (Path.mk name).steps = [.name name] := by
  rw [Path.steps, h.parts]
  exact List.filterMap_cons_some h.component?

theorem relative (h : FileName name) : (Path.mk name).isAbsolute = false :=
  Path.isAbsolute_name h.ne_empty h.slash

/-- A file name is written behind a path as it is, with a slash or without. -/
theorem text_join (h : FileName name) (p : Path) :
    (p.join ⟨name⟩).text = p.text ++ name ∨ (p.join ⟨name⟩).text = p.text ++ "/" ++ name := by
  rw [Path.join, if_neg (Bool.eq_false_iff.1 h.relative)]
  split
  · exact Or.inl rfl
  · exact Or.inr rfl

end FileName

/-! ## 2. Walking on -/

namespace FileTree

variable {t : FileTree} {place : Location}

theorem enter_directory (h : t.get? place = some .directory) : t.enter place = .ok () := by
  rw [enter, h]

theorem step_vacuous (h : t.get? place = some .directory) {part : String}
    (hpart : Path.isVacuous part = true) : t.step place part = .ok place := by
  simp only [step, enter_directory h, if_pos hpart]

theorem step_name (h : t.get? place = some .directory) {name : String} (hname : FileName name) :
    t.step place name = .ok (place ++ [name]) := by
  have hup : ¬ (name == "..") = true := fun e => hname.ne_up (beq_iff_eq.1 e)
  have hvacuous : ¬ Path.isVacuous name = true := Bool.eq_false_iff.1 hname.vacuous
  have hshort : ¬ maxNameBytes < name.utf8ByteSize := Nat.not_lt.2 hname.short
  simp only [step, enter_directory h, if_neg hvacuous, if_neg hup, if_neg hshort]

theorem walk_append : ∀ {front back : List String} {place : Location},
    t.walk place (front ++ back) = t.walk place front >>= fun next => t.walk next back
  | [], _, _ => rfl
  | part :: front, back, place => by
      rw [List.cons_append, walk, walk]
      cases t.step place part with
      | error fault => rfl
      | ok next => exact walk_append

/-- An empty part at the end takes a walk nowhere else. -/
theorem walk_of_append_empty {front : List String} {final : Location}
    (h : t.walk place (front ++ [""]) = .ok final) : t.walk place front = .ok final := by
  rw [walk_append] at h
  cases hfront : t.walk place front with
  | error fault =>
    rw [hfront] at h
    cases h
  | ok next =>
    rw [hfront] at h
    have hstay : final = next := walk_eq_ok h
    rw [hstay]

end FileTree

/-! ## 3. Paths -/

/-- A path leads to a place from the working directory of a file system. -/
structure LeadsTo (fs : FileSystem) (p : Path) (place : Location) : Prop where
  text : p.text ≠ ""
  zero : '\x00' ∉ p.text.toList
  walk : fs.tree.walk (fs.start p) p.parts = .ok place

namespace LeadsTo

variable {fs : FileSystem} {p : Path} {place : Location}

/-- A path that is found leads to where it is found. -/
theorem of_find {e : Entry} (h : fs.find p = .ok (place, e)) : LeadsTo fs p place := by
  unfold FileSystem.find at h
  split at h
  · cases h
  · rename_i hfault
    split at h
    · cases h
    · rename_i found hwalk
      split at h
      · cases h
      · obtain ⟨rfl, rfl⟩ := Prod.mk.inj (Except.ok.inj h)
        refine ⟨Path.text_ne_of_fault? hfault, ?_, hwalk⟩
        unfold Path.fault? at hfault
        split at hfault
        · cases hfault
        · rename_i hzero
          simpa using hzero

/-- What a path leads to is found unless the path is too long. -/
theorem find (h : LeadsTo fs p place) {e : Entry} (hget : fs.tree.get? place = some e) :
    fs.find p = if Path.maxBytes < p.text.utf8ByteSize then .error .nameTooLong
      else .ok (place, e) := by
  have hzero : ¬ p.text.toList.contains '\x00' = true := by simpa using h.zero
  have hempty : ¬ (p.text == "") = true := by simpa using h.text
  have hfault : p.fault? = if Path.maxBytes < p.text.utf8ByteSize then some .nameTooLong
      else none := by
    rw [Path.fault?, if_neg hzero, if_neg hempty]
  by_cases hlong : Path.maxBytes < p.text.utf8ByteSize
  · simp only [FileSystem.find, hfault, if_pos hlong]
  · simp only [FileSystem.find, hfault, if_neg hlong, h.walk, hget]

/-- A slash behind the path to a directory does not lead elsewhere. -/
theorem slash (h : LeadsTo fs p place) (hdir : fs.tree.get? place = some .directory) :
    LeadsTo fs ⟨p.text ++ "/"⟩ place where
  text := by simp
  zero := by simpa using h.zero
  walk := by
    have hparts : (Path.mk (p.text ++ "/")).parts = p.parts ++ [""] := by
      have hslash := Path.parts_append_slash p.text ""
      rwa [String.append_empty] at hslash
    have hstart : fs.start ⟨p.text ++ "/"⟩ = fs.start p := by
      have hne : p.text.toList ≠ [] := fun e => h.text (String.toList_eq_nil_iff.1 e)
      simp [FileSystem.start, Path.isAbsolute, List.head?_append_of_ne_nil _ hne]
    rw [hparts, hstart, FileTree.walk_append, h.walk]
    show fs.tree.walk place [""] = .ok place
    rw [FileTree.walk, FileTree.step_vacuous hdir rfl]
    rfl

/-- From a directory a file name leads on. -/
theorem join (h : LeadsTo fs p place) (hdir : fs.tree.get? place = some .directory)
    {name : String} (hname : FileName name) : LeadsTo fs (p.join ⟨name⟩) (place ++ [name]) := by
  have hread := hname.text_join p
  constructor
  case text => rcases hread with ht | ht <;> simp [ht, h.text]
  case zero => rcases hread with ht | ht <;> simp [ht, h.zero, hname.zero]
  case walk =>
    have hfront : fs.tree.walk (fs.start p)
        (if p.endsInSlash then p.parts.dropLast else p.parts) = .ok place := by
      split
      · rename_i hslash
        obtain ⟨front, _, hparts⟩ := Path.endsInSlash_spec hslash
        have hwalk := h.walk
        rw [hparts] at hwalk ⊢
        rw [List.dropLast_concat]
        exact FileTree.walk_of_append_empty hwalk
      · exact h.walk
    rw [Path.parts_join hname.relative h.text, hname.parts, FileTree.walk_append, FileSystem.start,
      Path.isAbsolute_join hname.relative, ← FileSystem.start, hfront]
    show fs.tree.walk place [name] = .ok (place ++ [name])
    rw [FileTree.walk, FileTree.step_name hdir hname]
    rfl

end LeadsTo

/-! ## 4. Trees with the same entries -/

namespace FileTree

variable {t t' : FileTree} (h : ∀ place, t.get? place = t'.get? place)

include h

theorem step_congr (place : Location) (part : String) : t.step place part = t'.step place part := by
  rw [step, step, enter, enter, h]

theorem walk_congr : ∀ (parts : List String) (place : Location),
    t.walk place parts = t'.walk place parts
  | [], _ => rfl
  | part :: rest, place => by
      rw [walk, walk, step_congr h]
      cases t'.step place part with
      | error fault => rfl
      | ok next => exact walk_congr rest next

end FileTree

/-- Trees with the same entries cannot be told apart by paths. -/
theorem FileSystem.find_congr {t t' : FileTree} (h : ∀ place, t.get? place = t'.get? place)
    (working : Location) (p : Path) :
    (FileSystem.mk t working).find p = (FileSystem.mk t' working).find p := by
  simp only [FileSystem.find, FileSystem.start, FileTree.walk_congr h, h]

end MasterSchema
