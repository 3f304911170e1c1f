import Mathlib.Data.List.Infix
import MasterSchema.Proofs.Project.Inputs
import MasterSchema.Proofs.Project.Warnings

/-!
# What the id file decides

The id file decides what a run warns of, and nothing else (`onlyWarns_of_beside`).

* Two trees that are equal beside the id file are one to every path that does not pass it. So a run
  over them has one result and writes the same files, as long as what it reads, clears and writes is
  beside the id file, and an id file that is there holds an id registry (`generate_beside`).
* If the class prefix has no slash, then the files of a run lie below its output directory, and the
  id file does not (`writesBeside_of_plain`).
* A class prefix can lead out of the output directory and through the id file. Then the files can be
  written if there is none, and cannot if there is one (`led_astray`).
-/

namespace MasterSchema

/-! ## 1. Paths that do not pass the id file -/

/-- Everywhere but where the id file is. -/
def Config.BesideIds (config : Config) (working : Location) (place : Location) : Prop :=
  config.idRegistryPath.fold? working ≠ some place

instance (config : Config) (working : Location) : DecidablePred (config.BesideIds working) :=
  fun _ => inferInstanceAs (Decidable (_ ≠ _))

namespace Path

variable {working out : Location} {seen : Location → Prop}

theorem within_iff_inits {p : Path} : p.Within working seen ↔
    ∀ first ∈ p.steps.inits, seen (first.foldl foldStep (p.origin working)) := by
  simp only [List.mem_inits]
  exact ⟨fun h first hfirst => h _ ⟨first, hfirst, rfl⟩,
    fun h place ⟨first, hfirst, hplace⟩ => hplace ▸ h first hfirst⟩

/-- A plain path below a directory passes what the directory's path passes, and then what is at the
directory or below it. -/
theorem Within.join {dir p : Path} (hdir : dir.Within working seen) (hp : p.Plain)
    (hout : dir.fold? working = some out) (hbelow : ∀ place, out <+: place → seen place) :
    (dir.join p).Within working seen := by
  rintro place ⟨first, hfirst, rfl⟩
  rw [steps_join hp.relative, hp.steps_eq] at hfirst
  rw [origin, isAbsolute_join hp.relative, ← origin]
  rcases List.prefix_or_prefix_of_prefix hfirst (List.prefix_append dir.steps _) with hshort | hlong
  · exact hdir _ ⟨first, hshort, rfl⟩
  · obtain ⟨rest, rfl⟩ := hlong
    rw [List.prefix_append_right_inj, List.prefix_iff_eq_take, ← List.map_take] at hfirst
    rw [fold?_eq (text_ne_of_fold? hout)] at hout
    rw [List.foldl_append, Option.some.inj hout, hfirst, foldl_foldStep_names]
    exact hbelow _ (List.prefix_append out _)

end Path

namespace Project

variable {config : Config} {working : Location} {t t' : FileTree}

/-- If there is an id file, an id registry is read of it. -/
def AcceptsIds (config : Config) (fs : FileSystem) : Prop :=
  fs.isFile config.idRegistryPath = true →
    ∃ ids, DataFile.readIdRegistry fs config.idRegistryPath = .ok ids

/-- No file that a run writes is looked for at the id file. -/
def WritesBeside (config : Config) (fs : FileSystem) : Prop :=
  ∀ r, (prepare config fs).result = .ok r →
    ∀ a ∈ Artifact.generateRegistry config.artifactOptions r,
      (config.outputDir.join a.path).Within fs.working (config.BesideIds fs.working)

/-- Without slashes in their names, files lie below the output directory and so beside the id
file. -/
theorem writesBeside_of_plain (hslash : '/' ∉ config.writing.classPrefix.toList)
    (houtput : config.outputDir.Within working (config.BesideIds working)) (t : FileTree) :
    WritesBeside config ⟨t, working⟩ := by
  intro r hprep a ha
  obtain ⟨out, hout, hinput⟩ := checkOutput_spec (prepare_eq_ok.1 hprep).1
  have hprefix : '/' ∉ config.artifactOptions.classPrefix.toList := hslash
  have hplain : a.path.Plain := Artifact.plain_of_mem (named_of_prepared hprep) hprefix ha
  exact houtput.join hplain hout fun place hbelow hplace => hinput .idRegistry place hplace hbelow

/-! ## 2. One run -/

/-- An event of the id file: what was read of it, that it is missing, or a domain that is not in
it. -/
def ofIdFile : Event → Bool
  | .idRegistryLoaded .. | .idRegistryMissing _ | .unknownDomain .. => true
  | _ => false

/-- An id file that is accepted lets the run go on, and all that is said is of the id file. -/
theorem checkDomains_of_accepted {fs : FileSystem} (h : AcceptsIds config fs) (r : Registry) :
    (checkDomains config fs r).result = .ok ()
      ∧ (checkDomains config fs r).log.filter (!ofIdFile ·) = [] := by
  cases hfile : fs.isFile config.idRegistryPath with
  | false =>
    rw [checkDomains_of_missing hfile]
    exact ⟨rfl, rfl⟩
  | true =>
    obtain ⟨ids, hread⟩ := h hfile
    rw [checkDomains_of_read hread]
    refine ⟨rfl, List.filter_eq_nil_iff.2 fun e hm => ?_⟩
    rcases List.mem_cons.1 hm with rfl | hm
    · simp [ofIdFile]
    · obtain ⟨u, _, rfl⟩ := List.mem_map.1 hm
      simp [ofIdFile, UnknownDomain.event]

/-- The id file stays as it was. -/
theorem get?_idFile {fs : FileSystem} (hwrites : WritesBeside config fs) {place : Location}
    (hplace : config.idRegistryPath.fold? fs.working = some place) :
    (generate config fs).tree.get? place = fs.tree.get? place := by
  refine generate_induction (motive := fun t => t.get? place = fs.tree.get? place) rfl ?_ ?_
  · intro r hprep
    obtain ⟨out, hout, hinput⟩ := checkOutput_spec (prepare_eq_ok.1 hprep).1
    refine FileSystem.removeDirectory_outside fun other hfind => ?_
    obtain rfl := Option.some.inj (hout.symm.trans (FileSystem.find_spec hfind).1)
    exact hinput .idRegistry place hplace
  · intro r hprep t a ha ht
    refine ((fs.withTree t).writeDeep_unpassed ?_ _).trans ht
    exact fun hpasses => hwrites r hprep a ha place hpasses hplace

/-! ## 3. Two runs -/

/-- Runs over two trees that differ, if at all, in what the id file decides. -/
structure SameButIds (config : Config) (working : Location) (t t' : FileTree) : Prop where
  result : (generate config ⟨t, working⟩).result = (generate config ⟨t', working⟩).result
  tree : (generate config ⟨t, working⟩).tree.AgreeOn (config.BesideIds working)
    (generate config ⟨t', working⟩).tree
  /-- The id file of each tree stays in it. -/
  kept : ∀ place, config.idRegistryPath.fold? working = some place →
    (generate config ⟨t, working⟩).tree.get? place = t.get? place
      ∧ (generate config ⟨t', working⟩).tree.get? place = t'.get? place
  said : (generate config ⟨t, working⟩).log.filter (!ofIdFile ·)
    = (generate config ⟨t', working⟩).log.filter (!ofIdFile ·)

section Beside

variable (hschema : config.schemaPath.Within working (config.BesideIds working))
  (h : t.AgreeOn (config.BesideIds working) t')

include hschema h

theorem loadRegistry_beside :
    loadRegistry config ⟨t, working⟩ = loadRegistry config ⟨t', working⟩ :=
  loadRegistry_congr (FileSystem.find_congr_within h hschema)

variable (hids : AcceptsIds config ⟨t, working⟩)

include hids

theorem writesBeside_congr (hwrites : WritesBeside config ⟨t, working⟩) :
    WritesBeside config ⟨t', working⟩ := by
  intro r hprep
  obtain ⟨haccepted, hloaded, _⟩ := prepare_eq_ok.1 hprep
  rw [← loadRegistry_beside hschema h] at hloaded
  exact hwrites r (prepare_eq_ok.2 ⟨haccepted, hloaded, (checkDomains_of_accepted hids r).1⟩)

/-- **A run comes to the same on trees that are equal beside the id file**, up to what it says of the
id file. -/
theorem generate_beside (hids' : AcceptsIds config ⟨t', working⟩)
    (houtput : config.outputDir.Within working (config.BesideIds working))
    (hwrites : WritesBeside config ⟨t, working⟩) : SameButIds config working t t' := by
  have hload := loadRegistry_beside hschema h
  suffices hsame : (generate config ⟨t, working⟩).result = (generate config ⟨t', working⟩).result
      ∧ (generate config ⟨t, working⟩).tree.AgreeOn (config.BesideIds working)
        (generate config ⟨t', working⟩).tree
      ∧ (generate config ⟨t, working⟩).log.filter (!ofIdFile ·)
        = (generate config ⟨t', working⟩).log.filter (!ofIdFile ·) by
    obtain ⟨hresult, htree, hsaid⟩ := hsame
    have hwrites' := writesBeside_congr hschema h hids hwrites
    exact ⟨hresult, htree, fun place hplace =>
      ⟨get?_idFile hwrites hplace, get?_idFile hwrites' hplace⟩, hsaid⟩
  cases haccepted : config.checkOutput working with
  | error cause =>
    have hrun : generate config ⟨t, working⟩ = ⟨.error (.load cause), t, []⟩ :=
      generate_of_unaccepted haccepted
    have hrun' : generate config ⟨t', working⟩ = ⟨.error (.load cause), t', []⟩ :=
      generate_of_unaccepted haccepted
    rw [hrun, hrun']
    exact ⟨rfl, h, rfl⟩
  | ok done =>
    cases hloaded : (loadRegistry config ⟨t, working⟩).result with
    | error e =>
      have hloaded' : (loadRegistry config ⟨t', working⟩).result = .error e := by
        rw [← hload, hloaded]
      have hrun : generate config ⟨t, working⟩
          = ⟨.error e, t, (loadRegistry config ⟨t, working⟩).log⟩ :=
        generate_of_unloaded hloaded haccepted
      have hrun' : generate config ⟨t', working⟩
          = ⟨.error e, t', (loadRegistry config ⟨t', working⟩).log⟩ :=
        generate_of_unloaded hloaded' haccepted
      rw [hrun, hrun', hload]
      exact ⟨rfl, h, rfl⟩
    | ok r =>
      have hloaded' : (loadRegistry config ⟨t', working⟩).result = .ok r := by
        rw [← hload, hloaded]
      obtain ⟨hchecked, hsaid⟩ := checkDomains_of_accepted hids r
      obtain ⟨hchecked', hsaid'⟩ := checkDomains_of_accepted hids' r
      have hprep : (prepare config ⟨t, working⟩).result = .ok r :=
        prepare_eq_ok.2 ⟨haccepted, hloaded, hchecked⟩
      have hreplaced : (replaceOutput config ⟨t, working⟩ r).SameOn (config.BesideIds working)
          (replaceOutput config ⟨t', working⟩ r) :=
        replaceOutput_sameOn h houtput (hwrites r hprep)
      have hrun : generate config ⟨t, working⟩ = .after ((loadRegistry config ⟨t, working⟩).log
          ++ (checkDomains config ⟨t, working⟩ r).log) (replaceOutput config ⟨t, working⟩ r) :=
        generate_of_loaded hloaded haccepted hchecked
      have hrun' : generate config ⟨t', working⟩ = .after ((loadRegistry config ⟨t', working⟩).log
          ++ (checkDomains config ⟨t', working⟩ r).log) (replaceOutput config ⟨t', working⟩ r) :=
        generate_of_loaded hloaded' haccepted hchecked'
      rw [hrun, hrun', hload]
      simp only [Outcome.after_result, Outcome.after_tree, Outcome.after_log, List.filter_append,
        hsaid, hsaid', hreplaced.log]
      exact ⟨hreplaced.result, hreplaced.tree, trivial⟩

end Beside

/-! ## 4. All of it -/

/-- What the id file decides of a run. -/
structure OnlyWarns (config : Config) (working : Location) : Prop where
  /-- Whether there is an id file, and which domains are in it, makes no other difference. -/
  beside : ∀ t t', t.AgreeOn (config.BesideIds working) t' → AcceptsIds config ⟨t, working⟩ →
    AcceptsIds config ⟨t', working⟩ → WritesBeside config ⟨t, working⟩ →
      SameButIds config working t t'
  plain : '/' ∉ config.writing.classPrefix.toList → ∀ t, WritesBeside config ⟨t, working⟩
  /-- The domains in the id file decide what the run warns of. -/
  warns : ∀ t ids,
    DataFile.readIdRegistry ⟨t, working⟩ config.idRegistryPath = .ok ids →
      WarnsOfDomains config ⟨t, working⟩ ids

/-- **The id file decides what a run warns of, and nothing else**, if the schema path and the output
path do not pass it. -/
theorem onlyWarns_of_beside
    (hschema : config.schemaPath.Within working (config.BesideIds working))
    (houtput : config.outputDir.Within working (config.BesideIds working)) :
    OnlyWarns config working where
  beside _ _ h hids hids' hwrites := generate_beside hschema h hids hids' houtput hwrites
  plain hslash := writesBeside_of_plain hslash houtput
  warns _ _ hread := warnsOfDomains hread

/-- A project with identifiers of two domains. -/
def unlisted : Config :=
  { layout := { schema := ⟨"a.toml"⟩, idRegistry := ⟨"id.toml"⟩, output := ⟨"out"⟩ } }

/-- The files of the project, without an id file. -/
def unlistedTree : FileTree :=
  .ofEntries [(["a.toml"], .file ("[masterdata.md_A]\ndata_type_name = \"A\"\n"
    ++ "field.id = \"Kanji:ID:PKey\"\nfield.radical = \"Radical:ID\"\n").toUTF8)]

/-- The text of an id file with one of the domains. -/
def kanjiOnly : String := "[id.kanji]\nname = \"Kanji\"\nbegin = 0\nend = 9\n"

/-- The same files with an id file. -/
def listedTree (ids : String) : FileTree :=
  unlistedTree.add [] "id.toml" (.file ids.toUTF8) (by decide +kernel)

theorem agreeOn_listedTree (hids : config.idRegistryPath.fold? [] = some ["id.toml"])
    (ids : String) : unlistedTree.AgreeOn (config.BesideIds []) (listedTree ids) := by
  intro place hplace
  rw [listedTree, FileTree.get?_add, if_neg]
  rintro rfl
  exact hplace hids

theorem onlyWarns_unlisted : OnlyWarns unlisted []
    ∧ SameButIds unlisted [] unlistedTree (listedTree kanjiOnly)
    ∧ (warningsIn (generate unlisted ⟨listedTree kanjiOnly, []⟩).log).map Event.line
      = ["WARN A.radical: id domain 'Radical' is not in the id registry"] := by
  have honly : OnlyWarns unlisted [] := onlyWarns_of_beside
    (Path.within_iff_inits.2 (by decide +kernel)) (Path.within_iff_inits.2 (by decide +kernel))
  have hread : DataFile.readIdRegistry ⟨listedTree kanjiOnly, []⟩ unlisted.idRegistryPath
      = .ok ⟨[⟨"Kanji", 0, 9⟩]⟩ := by
    decide +kernel
  refine ⟨honly, ?_, ?_⟩
  · refine honly.beside _ _ (agreeOn_listedTree (by decide +kernel) _) ?_ (fun _ => ⟨_, hread⟩) ?_
    · exact fun hfile => absurd hfile (by decide +kernel)
    · exact honly.plain (by decide +kernel) _
  · have hview : (loadRegistry unlisted ⟨listedTree kanjiOnly, []⟩).result.map
        (unknownDomains unlisted ⟨[⟨"Kanji", 0, 9⟩]⟩) = .ok [⟨"A", "radical", "Radical"⟩] := by
      decide +kernel
    obtain ⟨r, hloaded, hunknown⟩ := exists_of_map_eq_ok hview
    rw [(honly.warns _ _ hread).warnings r (by decide +kernel) hloaded, hunknown]
    decide

/-- The same project, its class prefix leading out of the output directory and through the id
file. -/
def ledAstray : Config := { unlisted with writing := { classPrefix := "../../id.toml/" } }

/-- The same project, its output directory above the schema file. -/
def enclosing : Config := { unlisted with layout := { unlisted.layout with output := ⟨"."⟩ } }

/-- The first project can be generated if there is no id file, for then a directory is made in its
place. In the second one the domains are unknown, but the run is refused before it looks. -/
theorem led_astray :
    (ledAstray.schemaPath.Within [] (ledAstray.BesideIds [])
      ∧ ledAstray.outputDir.Within [] (ledAstray.BesideIds [])
      ∧ unlistedTree.AgreeOn (ledAstray.BesideIds []) (listedTree "")
      ∧ AcceptsIds ledAstray ⟨unlistedTree, []⟩ ∧ AcceptsIds ledAstray ⟨listedTree "", []⟩
      ∧ (generate ledAstray ⟨unlistedTree, []⟩).result = .ok ⟨1, [⟨"class/../../id.toml/A.hpp"⟩,
        ⟨"repository/../../id.toml/ARepository.hpp"⟩,
        ⟨"repository/../../id.toml/ARepository.cpp"⟩]⟩
      ∧ (generate ledAstray ⟨listedTree "", []⟩).result
        = .error (.write ⟨"././out/class/../../id.toml/A.hpp"⟩ .alreadyExists))
    ∧ enclosing.schemaPath.Within [] (enclosing.BesideIds [])
      ∧ enclosing.outputDir.Within [] (enclosing.BesideIds [])
      ∧ DataFile.readIdRegistry ⟨listedTree "", []⟩ enclosing.idRegistryPath = .ok ⟨[]⟩
      ∧ (loadRegistry enclosing ⟨listedTree "", []⟩).result.map (unknownDomains enclosing ⟨[]⟩)
        = .ok [⟨"A", "id", "Kanji"⟩, ⟨"A", "radical", "Radical"⟩]
      ∧ warningsIn (generate enclosing ⟨listedTree "", []⟩).log = [] := by
  refine ⟨⟨Path.within_iff_inits.2 (by decide +kernel), Path.within_iff_inits.2 (by decide +kernel),
    agreeOn_listedTree (by decide +kernel) "", ?_, ?_, by decide +kernel, by decide +kernel⟩,
    Path.within_iff_inits.2 (by decide +kernel), Path.within_iff_inits.2 (by decide +kernel),
    by decide +kernel, by decide +kernel, by decide +kernel⟩
  · exact fun hfile => absurd hfile (by decide +kernel)
  · exact fun _ => ⟨⟨[]⟩, by decide +kernel⟩

end Project

end MasterSchema
