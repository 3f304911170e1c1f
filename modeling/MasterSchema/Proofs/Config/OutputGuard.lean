import MasterSchema.Config.Reading
import MasterSchema.FileTree.Difference
import MasterSchema.Proofs.Path.Respelling

/-!
# The output guard

The output directory is cleared before a run writes, so a configuration whose output directory holds
an input is refused.

* Every path of a configuration that is loaded folds to a location of names (`Placed.folds`).
* The check accepts exactly if no input folds to the output directory or below it, and otherwise
  reports the first that does (`Placed.checkOutput_eq_ok`, `Placed.checkOutput_eq_error`). Names are
  compared whole: a name that is longer by an ending is another name (`not_within_sibling`).
* Detours in the paths change nothing (`Respelled.within_iff`).
-/

namespace MasterSchema.Config

open MasterSchema.Path

variable {fs : FileSystem} {file : Path} {config config' : Config} {working : Location}

/-! ## 1. Where the paths of a loaded configuration fold -/

theorem baseOf_ne (file : Path) : (baseOf file).text ≠ "" := by
  unfold baseOf
  split
  · split
    · decide
    · rename_i hne
      exact fun e => hne (beq_iff_eq.2 e)
  · decide

theorem base_of_load (h : load fs file = .ok config) : config.base = baseOf file := by
  unfold load at h
  split at h
  · cases h
  · split at h
    · cases h
    · rw [← Except.ok.inj h]

/-- A configuration whose directory is written somehow. -/
def Placed (config : Config) : Prop := config.base.text ≠ ""

theorem placed_of_load (h : load fs file = .ok config) : config.Placed := by
  rw [Placed, base_of_load h]
  exact baseOf_ne file

namespace Placed

theorem root (h : config.Placed) : config.root.text ≠ "" := text_ne_join h _

theorem outputDir (h : config.Placed) : config.outputDir.text ≠ "" := text_ne_join h.root _

theorem inputPath (h : config.Placed) (input : Input) : (config.inputPath input).text ≠ "" := by
  cases input with
  | schema => exact text_ne_join h.root _
  | idRegistry => exact text_ne_join h.root _
  | records => exact text_ne_join h.root _

end Placed

/-- The paths that the check reads. -/
def checkedPaths (config : Config) : List Path :=
  config.outputDir :: inputs.map config.inputPath

/-- A location whose path is the root and names, and folds to the location again. -/
structure Normal (place : Location) : Prop where
  components : (ofLocation place).components = .root :: place.map Component.name
  folded : ∀ working, (ofLocation place).fold? working = some place

theorem normal_of_fold? {p : Path} {place : Location} (hworking : ∀ name ∈ working, IsName name)
    (h : p.fold? working = some place) : Normal place :=
  ⟨components_ofLocation (isName_of_mem_fold? hworking h),
    fold?_ofLocation (isName_of_mem_fold? hworking h)⟩

/-- **Every path of a placed configuration folds to a location of names.** -/
theorem Placed.folds (h : config.Placed) (hworking : ∀ name ∈ working, IsName name) :
    ∀ p ∈ config.checkedPaths, ∃ place, p.fold? working = some place ∧ Normal place := by
  intro p hp
  have hne : p.text ≠ "" := by
    rcases List.mem_cons.1 hp with rfl | hp
    · exact h.outputDir
    · obtain ⟨input, _, rfl⟩ := List.mem_map.1 hp
      exact h.inputPath input
  exact ⟨_, fold?_eq hne working, normal_of_fold? hworking (fold?_eq hne working)⟩

/-! ## 2. What is refused -/

/-- The input is the output directory or below it, both folded. -/
def Within (config : Config) (working : Location) (input : Input) : Prop :=
  ∃ out rest, config.outputDir.fold? working = some out
    ∧ (config.inputPath input).fold? working = some (out ++ rest)

theorem Placed.covers_iff (h : config.Placed) (input : Input) :
    config.covers working input = true ↔ config.Within working input := by
  rw [covers, foldsBelow, fold?_eq h.outputDir, fold?_eq (h.inputPath input)]
  simp only [List.isPrefixOf_iff_prefix]
  constructor
  · rintro ⟨rest, hrest⟩
    exact ⟨_, rest, fold?_eq h.outputDir working, by rw [fold?_eq (h.inputPath input), hrest]⟩
  · rintro ⟨out, rest, hout, hinput⟩
    rw [fold?_eq h.outputDir] at hout
    rw [fold?_eq (h.inputPath input)] at hinput
    rw [Option.some.inj hout, Option.some.inj hinput]
    exact List.prefix_append out rest

/-- **The check accepts exactly if no input is within the output directory.** -/
theorem Placed.checkOutput_eq_ok (h : config.Placed) :
    config.checkOutput working = .ok () ↔ ∀ input, ¬ config.Within working input := by
  have hnone : (∀ input, ¬ config.Within working input) ↔
      inputs.find? (config.covers working) = none := by
    rw [List.find?_eq_none]
    constructor
    · exact fun hall input _ hcovers => hall input ((h.covers_iff input).1 hcovers)
    · intro hall input hwithin
      exact hall input (by cases input <;> decide) ((h.covers_iff input).2 hwithin)
  rw [hnone, checkOutput]
  cases inputs.find? (config.covers working) <;> simp

/-- The first input within the output directory, in the order of the check. -/
def FirstWithin (config : Config) (working : Location) (input : Input) : Prop :=
  ∃ before after, inputs = before ++ input :: after ∧ config.Within working input
    ∧ ∀ earlier ∈ before, ¬ config.Within working earlier

theorem Placed.firstWithin_iff (h : config.Placed) {input : Input} :
    config.FirstWithin working input ↔ inputs.find? (config.covers working) = some input := by
  have hcovers : ∀ other, (!config.covers working other) = true ↔ ¬ config.Within working other :=
    fun other => by rw [← h.covers_iff, Bool.not_eq_true', Bool.not_eq_true]
  rw [List.find?_eq_some_iff_append]
  simp only [h.covers_iff, hcovers]
  constructor
  · rintro ⟨before, after, hsplit, hwithin, hearlier⟩
    exact ⟨hwithin, before, after, hsplit, hearlier⟩
  · rintro ⟨hwithin, before, after, hsplit, hearlier⟩
    exact ⟨before, after, hsplit, hwithin, hearlier⟩

/-- The refusal that names an input. -/
def refusal (config : Config) (input : Input) : LoadError :=
  .badConfig config.outputDir (.outputContains input (config.inputPath input))

theorem refusal_inj {input other : Input} :
    config.refusal input = config.refusal other ↔ input = other := by
  constructor
  · intro h
    exact (ConfigFault.outputContains.inj (LoadError.badConfig.inj h).2).1
  · rintro rfl
    rfl

/-- **A refusal names the first input within the output directory.** -/
theorem Placed.checkOutput_eq_error (h : config.Placed) {e : LoadError} :
    config.checkOutput working = .error e ↔
      ∃ input, config.FirstWithin working input ∧ e = config.refusal input := by
  simp only [h.firstWithin_iff]
  rw [checkOutput]
  cases inputs.find? (config.covers working) with
  | none => simp
  | some input => simp [refusal, eq_comm]

/-- **A sibling of the output directory is not within it**, also if its name goes on where that of
the output directory ends. -/
theorem not_within_sibling {input : Input} {dir rest : Location} {name ending : String}
    (hout : config.outputDir.fold? working = some (dir ++ [name]))
    (hinput : (config.inputPath input).fold? working = some (dir ++ (name ++ ending) :: rest))
    (hne : ending ≠ "") : ¬ config.Within working input := by
  rintro ⟨out, below, hout', hinput'⟩
  obtain rfl := Option.some.inj (hout.symm.trans hout')
  have hsame := Option.some.inj (hinput.symm.trans hinput')
  rw [List.append_assoc, List.append_cancel_left_eq] at hsame
  obtain ⟨hname, _⟩ := List.cons.inj hsame
  exact hne (by simpa using hname)

/-! ## 3. Detours -/

/-- A configuration whose paths are written with more detours. -/
structure Respelled (config config' : Config) : Prop where
  base : Relation.ReflTransGen Detour config.base config'.base
  root : Relation.ReflTransGen Detour config.layout.root config'.layout.root
  schema : Relation.ReflTransGen Detour config.layout.schema config'.layout.schema
  idRegistry : Relation.ReflTransGen Detour config.layout.idRegistry config'.layout.idRegistry
  records : Relation.ReflTransGen Detour config.layout.records config'.layout.records
  output : Relation.ReflTransGen Detour config.layout.output config'.layout.output

namespace Respelled

variable (h : Respelled config config') (hplaced : config.Placed)

include h

theorem sameWay_root : SameWay config.root config'.root :=
  (SameWay.of_detours h.base).join (.of_detours h.root)

theorem sameWay_inputPath (input : Input) :
    SameWay (config.inputPath input) (config'.inputPath input) := by
  cases input with
  | schema => exact h.sameWay_root.join (.of_detours h.schema)
  | idRegistry => exact h.sameWay_root.join (.of_detours h.idRegistry)
  | records => exact h.sameWay_root.join (.of_detours h.records)

include hplaced

theorem placed : config'.Placed := text_ne_of_detours hplaced h.base

theorem fold?_outputDir (working : Location) :
    config'.outputDir.fold? working = config.outputDir.fold? working := by
  have hsame : SameWay config.outputDir config'.outputDir :=
    h.sameWay_root.join (.of_detours h.output)
  exact (hsame.fold?_eq hplaced.outputDir (h.placed hplaced).outputDir working).symm

theorem fold?_inputPath (working : Location) (input : Input) :
    (config'.inputPath input).fold? working = (config.inputPath input).fold? working :=
  ((h.sameWay_inputPath input).fold?_eq (hplaced.inputPath input)
    ((h.placed hplaced).inputPath input) working).symm

theorem within_iff (working : Location) (input : Input) :
    config'.Within working input ↔ config.Within working input := by
  rw [Within, Within, h.fold?_outputDir hplaced, h.fold?_inputPath hplaced]

theorem firstWithin_iff (working : Location) (input : Input) :
    config'.FirstWithin working input ↔ config.FirstWithin working input := by
  simp only [FirstWithin, h.within_iff hplaced]

end Respelled

/-! ## 4. All of it -/

/-- What the check of the output directory decides. -/
structure Guarded (config : Config) (working : Location) : Prop where
  /-- Every path that is compared folds to a location of names, and that to itself. -/
  folds : ∀ p ∈ config.checkedPaths, ∃ place, p.fold? working = some place ∧ Normal place
  accepted_iff : config.checkOutput working = .ok () ↔ ∀ input, ¬ config.Within working input
  refused_iff : ∀ e, config.checkOutput working = .error e ↔
    ∃ input, config.FirstWithin working input ∧ e = config.refusal input
  sibling : ∀ input dir name ending rest,
    config.outputDir.fold? working = some (dir ++ [name]) →
    (config.inputPath input).fold? working = some (dir ++ (name ++ ending) :: rest) →
    ending ≠ "" → ¬ config.Within working input
  /-- With detours in its paths a configuration is accepted or refused for the same input. -/
  respelled : ∀ config', Respelled config config' →
    (config'.checkOutput working = .ok () ↔ config.checkOutput working = .ok ())
      ∧ ∀ input, config'.checkOutput working = .error (config'.refusal input) ↔
        config.checkOutput working = .error (config.refusal input)

/-- **A loaded configuration is accepted exactly if no input, folded, is its output directory or
below it.** Otherwise the first such input is named. Folded paths are locations of names, a longer
name is another name, and detours in the paths change neither the verdict nor the input. -/
theorem checkOutput_guards {fs : FileSystem} {file : Path} {config : Config} {working : Location}
    (h : load fs file = .ok config) (hworking : ∀ name ∈ working, isFileName name = true) :
    Guarded config working := by
  have hplaced := placed_of_load h
  constructor
  case folds =>
    exact hplaced.folds fun name hm => isName_of_isFileName (hworking name hm)
  case accepted_iff => exact hplaced.checkOutput_eq_ok
  case refused_iff => exact fun _ => hplaced.checkOutput_eq_error
  case sibling =>
    exact fun _ _ _ _ _ hout hinput hne => not_within_sibling hout hinput hne
  case respelled =>
    intro config' hrespelled
    have hplaced' := hrespelled.placed hplaced
    refine ⟨?_, fun input => ?_⟩
    · rw [hplaced.checkOutput_eq_ok, hplaced'.checkOutput_eq_ok]
      exact forall_congr' fun input => not_congr (hrespelled.within_iff hplaced working input)
    · rw [hplaced.checkOutput_eq_error, hplaced'.checkOutput_eq_error]
      simp only [refusal_inj, exists_eq_right', hrespelled.firstWithin_iff hplaced]

/-- A project whose schema is in a sibling of the output directory. -/
def siblings : FileSystem :=
  ⟨.ofEntries [(["srv"], .directory), (["srv", "game"], .directory),
    (["srv", "game", "mdgen.toml"], .file
      "[path]\nschema = \"gen.d/all.toml\"\noutput = \"gen\"\n".toUTF8)], ["srv"]⟩

theorem guarded_siblings :
    let config : Config :=
      { base := ⟨"game"⟩, layout := { schema := ⟨"gen.d/all.toml"⟩, output := ⟨"gen"⟩ } }
    let detoured : Config :=
      { base := ⟨"game"⟩, layout := { schema := ⟨"gen.d/./all.toml"⟩, output := ⟨"gen/old/.."⟩ } }
    load siblings ⟨"game/mdgen.toml"⟩ = .ok config ∧ Guarded config siblings.working
      ∧ ¬ config.Within siblings.working .schema ∧ config.checkOutput siblings.working = .ok ()
      ∧ detoured.checkOutput siblings.working = .ok () := by
  intro config detoured
  have hload : load siblings ⟨"game/mdgen.toml"⟩ = .ok config := by decide +kernel
  have hguarded : Guarded config siblings.working := checkOutput_guards hload (by decide)
  have hok : config.checkOutput siblings.working = .ok () := by decide +kernel
  have hold : IsName "old" := ⟨by decide +kernel, by decide⟩
  have houtput : Detour ⟨"gen"⟩ ⟨"gen/old/.."⟩ := .behind ⟨"gen"⟩ (.back hold)
  have hrespelled : Respelled config detoured :=
    { base := .refl
      root := .refl
      schema := .single (.between "gen.d" "all.toml" .here)
      idRegistry := .refl
      records := .refl
      output := .single houtput }
  refine ⟨hload, hguarded, ?_, hok, (hguarded.respelled detoured hrespelled).1.2 hok⟩
  exact hguarded.sibling .schema ["srv", "game"] "gen" ".d" ["all.toml"] (by decide +kernel)
    (by decide +kernel) (by decide)

end MasterSchema.Config
