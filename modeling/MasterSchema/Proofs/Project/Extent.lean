import MasterSchema.Proofs.Project.Received

/-!
# How far a run that writes gets

The artifacts are written one by one, and the first that cannot be written ends the run. What has
been written until then stays.

* `Reached` is the invariant of the loop: what was written stands, every other location holds the
  files it held before. A write that succeeds extends it (`Reached.extend`), one that fails keeps it
  (`Reached.keep`), and so the loop stops behind some of its artifacts (`Reached.run`).
* Seen by data types, the loop stops within one of them (`split_generateRegistry`): those before it
  have all their artifacts, those behind it have none of them (`Extent`, `extent_of_generate`).
* So where no file was left by the removal, a data type has some of its artifacts and lacks others
  exactly if its repository is what could not be written (`whole_or_missing_iff`).
-/

namespace MasterSchema

/-! ## 1. The loop -/

/-- The written artifacts stand below a place, and every other location holds a file exactly if it
held this file before. -/
structure Reached (place : Location) (before : FileTree) (written : List Artifact)
    (t : FileTree) : Prop where
  stands : ∀ a ∈ written, t.get? (place ++ a.path.parts) = some (.file a.text.toUTF8)
  other : ∀ other content, (∀ a ∈ written, other ≠ place ++ a.path.parts) →
    (t.get? other = some (.file content) ↔ before.get? other = some (.file content))

namespace Reached

variable {place : Location} {before t : FileTree} {written : List Artifact}

theorem start (place : Location) (t : FileTree) : Reached place t [] t where
  stands _ ha := absurd ha List.not_mem_nil
  other _ _ _ := Iff.rfl

section Write

variable (fs : FileSystem) {dir : Path} {a : Artifact} (h : Reached place before written fs.tree)
  (hd : dir.fold? fs.working = some place) (hplain : a.path.Plain)

include h

/-- A write that fails changes no file. -/
theorem keep {e : FileFault}
    (hw : (fs.writeDeep (dir.join a.path) a.text.toUTF8).result = .error e) :
    Reached place before written (fs.writeDeep (dir.join a.path) a.text.toUTF8).tree where
  stands b hb := (FileSystem.writeDeep_eq_error hw _ _).2 (h.stands b hb)
  other other content ho :=
    (FileSystem.writeDeep_eq_error hw other content).trans (h.other other content ho)

include hd hplain

/-- **A write that succeeds adds its artifact**, if no other one was written to its path. -/
theorem extend (hnew : a.path.parts ∉ written.map (·.path.parts))
    (hw : (fs.writeDeep (dir.join a.path) a.text.toUTF8).result = .ok ()) :
    Reached place before (written ++ [a])
      (fs.writeDeep (dir.join a.path) a.text.toUTF8).tree := by
  have hfold := hplain.fold?_join hd
  have helsewhere : ∀ other content, other ≠ place ++ a.path.parts →
      ((fs.writeDeep (dir.join a.path) a.text.toUTF8).tree.get? other = some (.file content)
        ↔ fs.tree.get? other = some (.file content)) := by
    intro other content ho
    refine fs.writeDeep_file_iff ?_ content a.text.toUTF8
    rw [hfold]
    exact fun he => ho (Option.some.inj he).symm
  constructor
  · intro b hb
    rcases List.mem_append.1 hb with hb | hb
    · have hne : place ++ b.path.parts ≠ place ++ a.path.parts := fun he =>
        hnew (List.mem_map.2 ⟨b, hb, List.append_cancel_left he⟩)
      exact (helsewhere _ _ hne).2 (h.stands b hb)
    · obtain rfl := List.mem_singleton.1 hb
      obtain ⟨target, ht, hfile⟩ := FileSystem.writeDeep_eq_ok hw
      obtain rfl := Option.some.inj (hfold.symm.trans ht)
      exact hfile
  · intro other content ho
    have hother := ho a (List.mem_append_right _ List.mem_cons_self)
    exact (helsewhere other content hother).trans
      (h.other other content fun b hb => ho b (List.mem_append_left _ hb))

end Write

/-- **The loop writes all its artifacts, or it stops at one of them and has written those before
it.** -/
theorem run {dir : Path} (fs : FileSystem) (hd : dir.fold? fs.working = some place) :
    ∀ (artifacts : List Artifact) {written : List Artifact} {t : FileTree},
      (∀ a ∈ artifacts, a.path.Plain) → ((written ++ artifacts).map (·.path.parts)).Nodup →
        Reached place before written t → ∃ done,
          Reached place before (written ++ done)
              (Project.writeArtifacts (fs.withTree t) dir artifacts).tree
            ∧ ((Project.writeArtifacts (fs.withTree t) dir artifacts).result = .ok ()
                ∧ done = artifacts
              ∨ ∃ a rest fault, artifacts = done ++ a :: rest
                ∧ (Project.writeArtifacts (fs.withTree t) dir artifacts).result
                  = .error (.write (dir.join a.path) fault))
  | [], written, t, _, _, h => by
      refine ⟨[], ?_, Or.inl ⟨rfl, rfl⟩⟩
      rw [List.append_nil]
      exact h
  | a :: rest, written, t, hplain, hnodup, h => by
      rcases Project.writeArtifacts_cons (fs.withTree t) dir a rest with
        ⟨fault, hdeep, hresult, htree⟩ | ⟨t', hdeep, hresult, htree⟩
      · refine ⟨[], ?_, Or.inr ⟨a, rest, fault, rfl, hresult⟩⟩
        rw [htree, List.append_nil]
        exact keep (fs.withTree t) h hdeep
      · have hnew : a.path.parts ∉ written.map (·.path.parts) := by
          intro hm
          rw [List.map_append, List.nodup_append] at hnodup
          exact hnodup.2.2 _ hm _ (List.mem_map_of_mem List.mem_cons_self) rfl
        have hstep := extend (fs.withTree t) h hd (hplain a List.mem_cons_self) hnew
          (congrArg Changed.result hdeep)
        rw [hdeep] at hstep
        rw [List.append_cons] at hnodup
        obtain ⟨done, hreached, hend⟩ := run fs hd rest
          (fun b hb => hplain b (List.mem_cons_of_mem a hb)) hnodup hstep
        refine ⟨a :: done, ?_, ?_⟩
        · rw [htree, List.append_cons]
          exact hreached
        · rw [hresult]
          rcases hend with ⟨hok, rfl⟩ | ⟨b, after, fault, rfl, herror⟩
          · exact Or.inl ⟨hok, rfl⟩
          · exact Or.inr ⟨b, after, fault, rfl, herror⟩

end Reached

/-! ## 2. Data types -/

/-- The kinds that are written before a kind. -/
def ArtifactKind.earlier (kind : ArtifactKind) : List ArtifactKind :=
  ArtifactKind.all.takeWhile (· ≠ kind)

namespace Artifact

/-- **A cut through the artifacts of a registry goes through one data type**: in front of the cut are
all artifacts of the data types before it and its own of the earlier kinds. -/
theorem split_generateRegistry {options : ArtifactOptions} :
    ∀ {types : List DataType} {done : List Artifact} {a : Artifact} {rest : List Artifact},
      types.flatMap (generateAll options) = done ++ a :: rest →
        ∃ before d after kind, types = before ++ d :: after ∧ a = generate options d kind
          ∧ done = before.flatMap (generateAll options)
            ++ kind.earlier.map (generate options d)
  | [], done, a, rest, h => by simp at h
  | d :: types, done, a, rest, h => by
      have hthree : generateAll options d
          = [generate options d .valueClass, generate options d .declaration,
            generate options d .definition] := rfl
      rw [List.flatMap_cons, hthree, List.cons_append, List.cons_append, List.cons_append,
        List.nil_append] at h
      rcases done with _ | ⟨x, done⟩
      · have ha := (List.cons.inj h).1
        exact ⟨[], d, types, .valueClass, rfl, ha.symm, rfl⟩
      obtain ⟨rfl, h₁⟩ := List.cons.inj h
      rcases done with _ | ⟨y, done⟩
      · have ha := (List.cons.inj h₁).1
        exact ⟨[], d, types, .declaration, rfl, ha.symm, rfl⟩
      obtain ⟨rfl, h₂⟩ := List.cons.inj h₁
      rcases done with _ | ⟨z, done⟩
      · have ha := (List.cons.inj h₂).1
        exact ⟨[], d, types, .definition, rfl, ha.symm, rfl⟩
      obtain ⟨rfl, h₃⟩ := List.cons.inj h₂
      obtain ⟨before, d', after, kind, rfl, rfl, rfl⟩ := split_generateRegistry h₃
      exact ⟨d :: before, d', after, kind, rfl, rfl, rfl⟩

end Artifact

namespace Project

/-- Where an artifact stands if the output directory's location is `place`. -/
def artifactPlace (config : Config) (place : Location) (d : DataType) (kind : ArtifactKind) :
    Location :=
  place ++ (Artifact.pathOf config.artifactOptions d kind).parts

/-- An artifact is there with its text. -/
def Standing (config : Config) (place : Location) (t : FileTree) (d : DataType)
    (kind : ArtifactKind) : Prop :=
  t.get? (artifactPlace config place d kind)
    = some (.file (Artifact.generate config.artifactOptions d kind).text.toUTF8)

/-- All artifacts of a data type are there. -/
def Whole (config : Config) (place : Location) (t : FileTree) (d : DataType) : Prop :=
  ∀ kind, Standing config place t d kind

/-- Where the artifacts of a data type belong there is no file. -/
def Missing (config : Config) (place : Location) (t : FileTree) (d : DataType) : Prop :=
  ∀ kind content, t.get? (artifactPlace config place d kind) ≠ some (.file content)

/-- The location of an artifact holds a file exactly if it held this file before. -/
def Untouched (config : Config) (place : Location) (before t : FileTree) (d : DataType)
    (kind : ArtifactKind) : Prop :=
  ∀ content, t.get? (artifactPlace config place d kind) = some (.file content)
    ↔ before.get? (artifactPlace config place d kind) = some (.file content)

/-- How far a run has got from the tree that the removal left: to the end, or to one artifact of one
data type. -/
inductive Extent (config : Config) (r : Registry) (place : Location) (cleared t : FileTree) :
    Except RunError GenerateSummary → Prop
  | complete (summary : GenerateSummary) (whole : ∀ d ∈ r.types, Whole config place t d) :
      Extent config r place cleared t (.ok summary)
  | stopped (before : List DataType) (d : DataType) (after : List DataType) (kind : ArtifactKind)
      (fault : FileFault) (split : r.types = before ++ d :: after)
      (whole : ∀ x ∈ before, Whole config place t x)
      (earlier : ∀ k ∈ kind.earlier, Standing config place t d k)
      (later : ∀ k, k ∉ kind.earlier → Untouched config place cleared t d k)
      (untouched : ∀ x ∈ after, ∀ k, Untouched config place cleared t x k) :
      Extent config r place cleared t (.error
        (.write (config.outputDir.join (Artifact.pathOf config.artifactOptions d kind)) fault))

variable {config : Config} {fs : FileSystem} {r : Registry} {place : Location}
  {before t : FileTree}

theorem standing_of_reached {written : List Artifact} (h : Reached place before written t)
    {d : DataType} {kind : ArtifactKind}
    (hm : Artifact.generate config.artifactOptions d kind ∈ written) :
    Standing config place t d kind :=
  h.stands (Artifact.generate config.artifactOptions d kind) hm

/-- What was not written is untouched: its names are those of no written artifact. -/
theorem untouched_of_reached (hslash : '/' ∉ config.artifactOptions.classPrefix.toList)
    {written : List Artifact} (h : Reached place before written t) {d : DataType} (hd : d.Named)
    {kind : ArtifactKind} (hother : ∀ a ∈ written, ∃ d' kind', d'.Named
      ∧ a = Artifact.generate config.artifactOptions d' kind' ∧ ¬ (kind = kind' ∧ d.key = d'.key)) :
    Untouched config place before t d kind := by
  refine fun content => h.other _ content fun a ha he => ?_
  obtain ⟨d', kind', hd', rfl, hne⟩ := hother a ha
  have hparts : (Artifact.pathOf config.artifactOptions d kind).parts
      = (Artifact.pathOf config.artifactOptions d' kind').parts := List.append_cancel_left he
  rw [Artifact.parts_pathOf hd hslash, Artifact.parts_pathOf hd' hslash] at hparts
  exact hne (Artifact.namesOf_inj hparts)

/-- The loop stopped between the artifacts of one data type. -/
theorem extent_of_reached (hnamed : ∀ d ∈ r.types, d.Named)
    (hslash : '/' ∉ config.artifactOptions.classPrefix.toList) {front back : List DataType}
    {d : DataType} (hsplit : r.types = front ++ d :: back) {kind : ArtifactKind} {fault : FileFault}
    (h : Reached place before (front.flatMap (Artifact.generateAll config.artifactOptions)
      ++ kind.earlier.map (Artifact.generate config.artifactOptions d)) t) :
    Extent config r place before t (.error
      (.write (config.outputDir.join (Artifact.pathOf config.artifactOptions d kind)) fault)) := by
  have hkeys : (front ++ d :: back).Pairwise fun x y => x.key ≠ y.key :=
    hsplit ▸ List.pairwise_map.1 r.distinct
  obtain ⟨_, hrest, hfront⟩ := List.pairwise_append.1 hkeys
  have hback := (List.pairwise_cons.1 hrest).1
  have hmem : ∀ x ∈ front ++ d :: back, x.Named := fun x hx => hnamed x (hsplit ▸ hx)
  have hdm : d ∈ front ++ d :: back := List.mem_append_right _ List.mem_cons_self
  have huntouched : ∀ x ∈ front ++ d :: back, ∀ k, (∀ y ∈ front, y.key ≠ x.key) →
      (x.key = d.key → k ∉ kind.earlier) → Untouched config place before t x k := by
    intro x hx k hfar hnear
    refine untouched_of_reached hslash h (hmem x hx) fun a ha => ?_
    rcases List.mem_append.1 ha with ha | ha
    · obtain ⟨y, hy, ha⟩ := List.mem_flatMap.1 ha
      obtain ⟨k', _, rfl⟩ := List.mem_map.1 ha
      exact ⟨y, k', hmem y (List.mem_append_left _ hy), rfl, fun hsame => hfar y hy hsame.2.symm⟩
    · obtain ⟨k', hk', rfl⟩ := List.mem_map.1 ha
      exact ⟨d, k', hmem d hdm, rfl, fun hsame => hnear hsame.2 (hsame.1 ▸ hk')⟩
  refine .stopped front d back kind fault hsplit ?_ ?_ ?_ ?_
  · intro x hx k
    have hall : Artifact.generate config.artifactOptions x k
        ∈ Artifact.generateAll config.artifactOptions x :=
      List.mem_map_of_mem (by cases k <;> decide)
    exact standing_of_reached h
      (List.mem_append_left _ (List.mem_flatMap.2 ⟨x, hx, hall⟩))
  · intro k hk
    exact standing_of_reached h (List.mem_append_right _ (List.mem_map_of_mem hk))
  · intro k hk
    exact huntouched d hdm k (fun y hy => hfront y hy d List.mem_cons_self) fun _ => hk
  · intro x hx k
    have hx' : x ∈ d :: back := List.mem_cons_of_mem d hx
    exact huntouched x (List.mem_append_right _ hx') k (fun y hy => hfront y hy x hx')
      fun hkey => absurd hkey.symm (hback x hx)

/-- **A run that has cleared the output directory writes all, or it writes the data types before one
of them, some of that one's artifacts, and nothing else.** -/
theorem extent_of_generate (hslash : '/' ∉ config.artifactOptions.classPrefix.toList)
    (hprep : (prepare config fs).result = .ok r)
    (hclear : (clearOutput fs config.outputDir).result = .ok ()) :
    ∃ place, config.outputDir.fold? fs.working = some place
      ∧ Extent config r place (fs.removeDirectory config.outputDir).tree
        (generate config fs).tree (generate config fs).result := by
  obtain ⟨place, hplace, _⟩ := checkOutput_spec (prepare_eq_ok.1 hprep).1
  have hnamed := named_of_prepared hprep
  obtain ⟨hresult, htree⟩ := generate_of_prepared hprep
  refine ⟨place, hplace, ?_⟩
  rw [hresult, htree]
  rcases replaceOutput_cases config fs r with ⟨_, herror, _⟩ | ⟨run, _, rfl, hmap, htree⟩
  · cases hclear.symm.trans herror
  · rw [hmap, htree]
    obtain ⟨done, hreached, hend⟩ := Reached.run fs hplace
      (Artifact.generateRegistry config.artifactOptions r)
      (fun a => Artifact.plain_of_mem hnamed hslash) (Artifact.nodup_parts hnamed hslash)
      (Reached.start place (fs.removeDirectory config.outputDir).tree)
    rcases hend with ⟨hok, rfl⟩ | ⟨a, rest, fault, hsplit, herror⟩
    · rw [hok]
      refine .complete _ fun d hd kind => ?_
      exact standing_of_reached hreached (Artifact.mem_generateRegistry.2 ⟨d, hd, kind, rfl⟩)
    · rw [herror]
      obtain ⟨front, d, back, kind, htypes, rfl, rfl⟩ := Artifact.split_generateRegistry hsplit
      exact extent_of_reached hnamed hslash htypes hreached

/-! ## 3. Data types that are there in part -/

/-- The path of an artifact below the output directory tells the data type and the kind. -/
theorem eq_of_join_pathOf (hnamed : ∀ d ∈ r.types, d.Named)
    (hslash : '/' ∉ config.artifactOptions.classPrefix.toList)
    (hplace : config.outputDir.fold? fs.working = some place) {d d' : DataType} (hd : d ∈ r.types)
    (hd' : d' ∈ r.types) {kind kind' : ArtifactKind}
    (h : config.outputDir.join (Artifact.pathOf config.artifactOptions d kind)
      = config.outputDir.join (Artifact.pathOf config.artifactOptions d' kind')) :
    kind = kind' ∧ d = d' := by
  have hfold := (Artifact.plain_pathOf (hnamed d hd) hslash kind).fold?_join hplace
  have hfold' := (Artifact.plain_pathOf (hnamed d' hd') hslash kind').fold?_join hplace
  rw [h] at hfold
  have hparts := List.append_cancel_left (Option.some.inj (hfold.symm.trans hfold'))
  rw [Artifact.parts_pathOf (hnamed d hd) hslash, Artifact.parts_pathOf (hnamed d' hd') hslash]
    at hparts
  obtain ⟨hkind, hkey⟩ := Artifact.namesOf_inj hparts
  exact ⟨hkind, List.inj_on_of_nodup_map r.distinct hd hd' hkey⟩

theorem not_mem_earlier (kind : ArtifactKind) : kind ∉ kind.earlier := by
  cases kind <;> decide

theorem earlier_eq_nil {kind : ArtifactKind} : kind.earlier = [] ↔ kind = .valueClass := by
  cases kind <;> decide

/-- **Where the output directory is cleared of all files, a data type has all of its artifacts or
none of them, unless its repository is what could not be written.** The class prefix is spelled
without a slash. -/
theorem whole_or_missing_iff (hall : ClearsAll fs config.outputDir)
    (hslash : '/' ∉ config.artifactOptions.classPrefix.toList)
    (hprep : (prepare config fs).result = .ok r)
    (hclear : (clearOutput fs config.outputDir).result = .ok ()) :
    ∃ place, config.outputDir.fold? fs.working = some place ∧ ∀ d ∈ r.types,
      (Whole config place (generate config fs).tree d
          ∨ Missing config place (generate config fs).tree d)
        ↔ ∀ kind fault, (generate config fs).result = .error
            (.write (config.outputDir.join (Artifact.pathOf config.artifactOptions d kind)) fault)
          → kind = .valueClass := by
  obtain ⟨place, hplace, hextent⟩ := extent_of_generate hslash hprep hclear
  refine ⟨place, hplace, fun d hd => ?_⟩
  have hnamed := named_of_prepared hprep
  have hnone : ∀ {x k}, Untouched config place (fs.removeDirectory config.outputDir).tree
      (generate config fs).tree x k → ∀ content,
      (generate config fs).tree.get? (artifactPlace config place x k) ≠ some (.file content) := by
    intro x k hx content hc
    have hbelow : config.outputDir.reached fs.working <+: artifactPlace config place x k := by
      rw [Path.reached_of_fold? hplace]
      exact List.prefix_append place _
    have hfile := (hx content).1 hc
    rw [← clearOutput_tree] at hfile
    exact hall.not_file hclear hbelow hfile
  generalize (generate config fs).result = result at hextent ⊢
  cases hextent with
  | complete summary whole =>
    exact ⟨(fun _ _ _ h => nomatch h), fun _ => Or.inl (whole d hd)⟩
  | stopped front x back kind fault split whole earlier later untouched =>
    have hx : x ∈ r.types := split ▸ List.mem_append_right _ List.mem_cons_self
    by_cases hdx : d = x
    · subst hdx
      constructor
      · intro hor kind' fault' he
        obtain ⟨rfl, -⟩ := eq_of_join_pathOf hnamed hslash hplace hd hd
          (RunError.write.inj (Except.error.inj he)).1
        rcases hor with hwhole | hmissing
        · exact absurd (hwhole kind) (hnone (later kind (not_mem_earlier kind)) _)
        · refine earlier_eq_nil.1 (List.eq_nil_iff_forall_not_mem.2 fun k hk => ?_)
          exact hmissing k _ (earlier k hk)
      · intro hvalue
        obtain rfl := hvalue kind fault rfl
        exact Or.inr fun k => hnone (later k List.not_mem_nil)
    · refine ⟨fun _ kind' fault' he => ?_, fun _ => ?_⟩
      · have hsame := eq_of_join_pathOf hnamed hslash hplace hx hd
          (RunError.write.inj (Except.error.inj he)).1
        exact absurd hsame.2.symm hdx
      · rw [split] at hd
        rcases List.mem_append.1 hd with hfront | hback
        · exact Or.inl (whole d hfront)
        · have hback := (List.mem_cons.1 hback).resolve_left hdx
          exact Or.inr fun k => hnone (untouched d hback k)

/-- The run over the stale project clears its output directory and gets to the end. -/
theorem stale_whole_or_missing : ∃ r place, (prepare stale.1 stale.2).result = .ok r
    ∧ stale.1.outputDir.fold? stale.2.working = some place
    ∧ ∀ d ∈ r.types, Whole stale.1 place (generate stale.1 stale.2).tree d
      ∨ Missing stale.1 place (generate stale.1 stale.2).tree d := by
  have hok : (generate stale.1 stale.2).result.isOk = true := by decide +kernel
  cases hprep : (prepare stale.1 stale.2).result with
  | error e =>
    rw [(generate_of_refused hprep).1] at hok
    cases hok
  | ok r =>
    have hall : ClearsAll stale.2 stale.1.outputDir :=
      clearsAll_of_direct (by decide +kernel) (by decide +kernel)
    obtain ⟨place, hplace, hiff⟩ := whole_or_missing_iff hall (by decide +kernel) hprep
      (by decide +kernel)
    refine ⟨r, place, rfl, hplace, fun d hd => (hiff d hd).2 fun kind fault he => ?_⟩
    rw [he] at hok
    cases hok

/-- An artifact whose file name is over the limit never stands, so that a data type with a
repository of such a name is never whole. -/
theorem not_standing_of_long {d : DataType} (hd : d.Named)
    (hslash : '/' ∉ config.artifactOptions.classPrefix.toList) {kind : ArtifactKind}
    (hlong : maxNameBytes < (Artifact.fileName config.artifactOptions d kind).utf8ByteSize) :
    ¬ Standing config place t d kind := by
  intro hstands
  have hmem : Artifact.fileName config.artifactOptions d kind
      ∈ (Artifact.pathOf config.artifactOptions d kind).parts := by
    rw [Artifact.parts_pathOf hd hslash]
    exact List.mem_append_right _ List.mem_cons_self
  have hname := FileTree.isFileName_of_get? hstands _ hmem
  simp only [isFileName, Bool.and_eq_true, decide_eq_true_eq] at hname
  omega

end Project

end MasterSchema
