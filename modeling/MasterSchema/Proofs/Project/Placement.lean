import MasterSchema.Proofs.Project.Discovery
import MasterSchema.Proofs.Validation.Report

/-!
# Where records are expected

The records of a data type are expected in the directory of its namespace, in a file with its name.

* `DataType.LiesAt` says so of the names on the way to a file; `DataType.recordPath` is the path
  there, and a file it leads to has those names (`parts_recordPath`).
* A discovery gives every data file a bucket, which is registered exactly if the file lies where a
  data type of the registry is expected (`registered_iff`).
* So a validation gives a report exactly if every data file does, and otherwise it ends at the first
  that does not (`validate_placement`).
-/

namespace MasterSchema

/-! ## 1. Expected files -/

/-- The extensions of data files. -/
def dataExtensions : List String := ["ron", "toml", "json"]

/-- The names on the way to a file with the records of a data type. -/
def DataType.LiesAt (d : DataType) (names : Location) : Prop :=
  ∃ extension ∈ dataExtensions, names = d.ns.segments ++ [d.name ++ "." ++ extension]

/-- The path to a file with the records of a data type, from the records directory on. -/
def DataType.recordPath (d : DataType) (extension : String) : Path :=
  d.ns.directory.join ⟨d.name ++ "." ++ extension⟩

section Expected

variable {d : DataType} {extension : String}

theorem dataExtensions_spec (h : extension ∈ dataExtensions) :
    '.' ∉ extension.toList ∧ '/' ∉ extension.toList ∧ 2 < extension.toList.length := by
  have hall : ∀ extension ∈ dataExtensions,
      '.' ∉ extension.toList ∧ '/' ∉ extension.toList ∧ 2 < extension.toList.length := by
    decide
  exact hall extension h

theorem cutAtDot_recordFile (hd : nameFault? d.name = none) (h : extension ∈ dataExtensions) :
    Path.cutAtDot (d.name ++ "." ++ extension) = (d.name, some extension) := by
  rw [Path.cutAtDot_eq d.name (dataExtensions_spec h).1,
    if_neg (isIdentifier_spec (isIdentifier_of_nameFault? hd)).1]

/-- **The path to a file of records is made of the names on the way.** -/
theorem parts_recordPath (hd : d.Named) (h : extension ∈ dataExtensions) :
    (d.recordPath extension).Plain
      ∧ (d.recordPath extension).parts = d.ns.segments ++ [d.name ++ "." ++ extension] := by
  obtain ⟨_, hslash, hlength⟩ := dataExtensions_spec h
  have hnames : ∀ name ∈ d.ns.segments ++ [d.name ++ "." ++ extension],
      Path.component? name = some (.name name) ∧ name ≠ "" ∧ '/' ∉ name.toList := by
    intro name hm
    rcases List.mem_append.1 hm with hm | hm
    · have hsegment := Artifact.segments_spec hd hm
      obtain ⟨hne, hfree, _⟩ := isIdentifier_spec hsegment
      exact ⟨component?_of_identifier hsegment, hne, hfree⟩
    · obtain rfl := List.mem_singleton.1 hm
      have hspecial : ∀ special : String, special.toList.length ≤ 2 →
          d.name ++ "." ++ extension ≠ special := by
        intro special hshort e
        rw [← e] at hshort
        simp only [String.toList_append, List.length_append] at hshort
        omega
      have hfree := (isIdentifier_spec (isIdentifier_of_nameFault? hd.name)).2.1
      exact ⟨Path.component?_of_name (hspecial "" (by decide)) (hspecial "." (by decide))
        (hspecial ".." (by decide)), hspecial "" (by decide), by simp [hfree, hslash]⟩
  have hpath : d.recordPath extension
      = Path.ofParts (d.ns.segments ++ [d.name ++ "." ++ extension]) := by
    rw [DataType.recordPath, Namespace.directory, Path.ofParts, Path.ofParts, List.foldl_append]
    rfl
  have hparts : (d.recordPath extension).parts = d.ns.segments ++ [d.name ++ "." ++ extension] := by
    rw [hpath]
    exact Path.parts_ofParts (by simp) fun name hm => (hnames name hm).2
  exact ⟨fun part hm => (hnames part (hparts ▸ hm)).1, hparts⟩

/-- **A data file lies where a data type is expected exactly if directories and name say so.** -/
theorem liesAt_iff (hd : nameFault? d.name = none) {names : Location}
    (hdata : isDataLocation names = true) :
    d.LiesAt names ↔ d.ns = ⟨names.dropLast⟩ ∧ d.name = stemOf names := by
  constructor
  · intro h
    obtain ⟨extension, hext, rfl⟩ := h
    rw [List.dropLast_concat, stemOf, List.getLast?_concat, Option.elim_some,
      cutAtDot_recordFile hd hext]
    exact ⟨rfl, rfl⟩
  · intro h
    obtain ⟨hns, hname⟩ := h
    obtain ⟨last, hlast, hcut⟩ := Discovery.isDataLocation_iff.1 hdata
    obtain ⟨front, rfl⟩ := List.getLast?_eq_some_iff.1 hlast
    have hmap : (Path.cutAtDot last).2 ∈ dataExtensions.map some := hcut
    obtain ⟨extension, hext, hsome⟩ := List.mem_map.1 hmap
    refine ⟨extension, hext, ?_⟩
    rw [hns, hname, stemOf, List.getLast?_concat, Option.elim_some,
      ← Path.eq_of_cutAtDot hsome.symm, List.dropLast_concat]

end Expected

/-! ## 2. Buckets -/

section First

variable {α β : Type}

/-- The first member of a list with `S`, all before it having `P`. -/
theorem first_cons_iff {P S : α → Prop} {x : α} {l : List α} :
    (∃ before a after, x :: l = before ++ a :: after ∧ (∀ y ∈ before, P y) ∧ S a)
      ↔ S x ∨ P x ∧ ∃ before a after, l = before ++ a :: after ∧ (∀ y ∈ before, P y) ∧ S a := by
  constructor
  · intro hfirst
    obtain ⟨before, a, after, hsplit, hbefore, ha⟩ := hfirst
    cases before with
    | nil =>
      obtain ⟨rfl, _⟩ := List.cons.inj hsplit
      exact Or.inl ha
    | cons y before =>
      obtain ⟨rfl, rfl⟩ := List.cons.inj hsplit
      obtain ⟨hx, hbefore⟩ := List.forall_mem_cons.1 hbefore
      exact Or.inr ⟨hx, before, a, after, rfl, hbefore, ha⟩
  · intro hor
    rcases hor with hx | ⟨hx, before, a, after, rfl, hbefore, ha⟩
    · exact ⟨[], x, l, rfl, List.forall_mem_nil _, hx⟩
    · exact ⟨x :: before, a, after, rfl, List.forall_mem_cons.2 ⟨hx, hbefore⟩, ha⟩

/-- What is first in a list is first in a list that goes with it. -/
theorem first_iff {R : α → β → Prop} {P S : α → Prop} {Q T : β → Prop} {l : List α} {k : List β}
    (h : List.Forall₂ R l k) (hbefore : ∀ a b, R a b → (P a ↔ Q b))
    (hfirst : ∀ a b, R a b → (S a ↔ T b)) :
    (∃ before a after, l = before ++ a :: after ∧ (∀ y ∈ before, P y) ∧ S a)
      ↔ ∃ before b after, k = before ++ b :: after ∧ (∀ y ∈ before, Q y) ∧ T b := by
  induction h with
  | nil => simp
  | cons hab _ ih => rw [first_cons_iff, first_cons_iff, ih, hbefore _ _ hab, hfirst _ _ hab]

/-- Either all members of a list have a property, or there is a first that has not. -/
theorem first_not_iff {P : α → Prop} {l : List α} :
    (∃ before a after, l = before ++ a :: after ∧ (∀ y ∈ before, P y) ∧ ¬ P a)
      ↔ ¬ ∀ a ∈ l, P a := by
  induction l with
  | nil => simp
  | cons x l ih =>
    rw [first_cons_iff, ih, List.forall_mem_cons, not_and_or]
    by_cases hx : P x <;> simp [hx]

end First

namespace Discovery

variable {fs : FileSystem} {dir : Path} {key : String} {names : Location} {bucket : RecordBucket}
  {r : Registry}

/-- **The bucket of a data file is registered exactly if the file lies where a data type of the
registry is expected.** -/
theorem registered_iff (hb : BucketOf fs dir key names bucket)
    (hdata : isDataLocation names = true) (hnamed : ∀ d ∈ r.types, d.Named) :
    bucket.Registered r ↔ ∃ d ∈ r.types, d.LiesAt names := by
  have hns : bucket.ns = ⟨names.dropLast⟩ := congrArg Namespace.mk hb.ns
  refine exists_congr fun d => and_congr_right fun hd => ?_
  rw [liesAt_iff (hnamed d hd).name hdata, hns, hb.dataType]

end Discovery

namespace Project

variable {config : Config} {fs : FileSystem} {r : Registry} {buckets : List RecordBucket}

/-- What a validation does with a data file: the file is one of records, and the data type that the
registry has for them is `d`. -/
def Resolved (config : Config) (r : Registry) (names : Location) (d : DataType) : Prop :=
  ∃ file, RecordFile.ofNames? config.recordsDir names = some file
    ∧ r.find file.dataType file.ns = .ok d

/-- A summary says what comes of the records of a data file, compared with the data type that is
expected where it lies. -/
def Summarised (config : Config) (fs : FileSystem) (r : Registry) (names : Location)
    (summary : BucketSummary) : Prop :=
  ∃ d ∈ r.types, d.LiesAt names ∧ Resolved config r names d
    ∧ ∃ records, DataFile.rootTable fs (RecordFile.pathBelow config.recordsDir names)
        config.rootKey = .ok records
      ∧ summary = (⟨d.ns, d.name, records⟩ : RecordBucket).summary d

/-- What a validation says of the data files below a place, given in the order of their
discovery. -/
structure Placement (config : Config) (fs : FileSystem) (r : Registry) (place : Location)
    (files : List Location) : Prop where
  report_iff : (∃ report, (validate config fs).result = .ok report) ↔
    ∀ names ∈ files, ∃ d ∈ r.types, d.LiesAt names
  summaries : ∀ report, (validate config fs).result = .ok report →
    List.Forall₂ (Summarised config fs r) files report.buckets
  /-- A file at the path where a data type is expected is resolved to it. -/
  expected : ∀ d ∈ r.types, ∀ extension ∈ dataExtensions, ∀ target content,
    (config.recordsDir.join (d.recordPath extension)).fold? fs.working = some target →
    fs.tree.get? target = some (.file content) →
    ∃ names ∈ files, target = place ++ names ∧ Resolved config r names d
  error_iff : ∀ e, (validate config fs).result = .error e ↔
    ∃ before names after, files = before ++ names :: after
      ∧ (∀ other ∈ before, ∃ d ∈ r.types, d.LiesAt other)
      ∧ (¬ ∃ d ∈ r.types, d.LiesAt names)
        ∧ e = .lookup (r.lookupError (stemOf names) ⟨names.dropLast⟩)

section Validate

variable (hr : (loadRegistry config fs).result = .ok r)
  (hb : (Discovery.discover fs config.recordsDir config.rootKey).result = .ok buckets)

include hr hb

theorem validate_eq_ok {report : ValidationReport} : (validate config fs).result = .ok report ↔
    (MasterSchema.validate r buckets).result = .ok report := by
  simp only [validate, Logged.andThen_eq_ok, Logged.mapError_eq_ok, hr, hb]
  constructor
  · intro hsome
    obtain ⟨_, hr', _, hb', checked, hchecked, hreport⟩ := hsome
    obtain rfl := Except.ok.inj hr'
    obtain rfl := Except.ok.inj hb'
    rwa [← Except.ok.inj hreport]
  · intro hreport
    exact ⟨r, rfl, buckets, rfl, report, hreport, rfl⟩

theorem validate_eq_error {e : RunError} : (validate config fs).result = .error e ↔
    ∃ cause, (MasterSchema.validate r buckets).result = .error cause ∧ e = .lookup cause := by
  simp only [validate, Logged.andThen_eq_error, Logged.mapError_eq_error, Logged.mapError_eq_ok, hr,
    hb]
  constructor
  · intro hor
    rcases hor with h | ⟨_, hr', ⟨_, h, _⟩ | ⟨_, hb', hlast⟩⟩
    · cases h
    · cases h
    · obtain rfl := Except.ok.inj hr'
      obtain rfl := Except.ok.inj hb'
      exact hlast.resolve_right fun hreport => nomatch hreport.choose_spec.2
  · intro herror
    exact Or.inr ⟨r, rfl, Or.inr ⟨buckets, rfl, Or.inl herror⟩⟩

end Validate

/-- A report of a project is that of its buckets. -/
theorem exists_of_validate {report : ValidationReport}
    (h : (validate config fs).result = .ok report) : ∃ r buckets,
      (loadRegistry config fs).result = .ok r
        ∧ (Discovery.discover fs config.recordsDir config.rootKey).result = .ok buckets
        ∧ (MasterSchema.validate r buckets).result = .ok report := by
  obtain ⟨r, hr, h'⟩ := Logged.andThen_eq_ok.1 h
  obtain ⟨buckets, hb, _⟩ := Logged.andThen_eq_ok.1 h'
  have hb := Logged.mapError_eq_ok.1 hb
  exact ⟨r, buckets, hr, hb, (validate_eq_ok hr hb).1 h⟩

/-- A data file is resolved to the data type that is expected where it lies. -/
theorem resolved_of_liesAt {place names : Location} {d : DataType}
    (hdata : Discovery.IsDataFile fs.tree place names) (hd : d ∈ r.types)
    (hname : nameFault? d.name = none) (h : d.LiesAt names) : Resolved config r names d := by
  obtain ⟨content, hstored⟩ := hdata.stored
  have hlocation := Discovery.isDataLocation_iff.2 hdata.extension
  obtain ⟨hns, hstem⟩ := (liesAt_iff hname hlocation).1 h
  have hne : names ≠ [] := by
    obtain ⟨_, _, rfl⟩ := h
    simp
  have hfile : RecordFile.ofNames? config.recordsDir names
      = some (RecordFile.below config.recordsDir names) := by
    rw [RecordFile.ofNames?_eq _ hne (FileTree.isFileName_of_get? hstored), if_pos hlocation]
  exact ⟨_, hfile, Registry.find_eq_ok.2 ⟨hd, hns, hstem⟩⟩

/-- A bucket of a data file comes out as its records compared with the data type that is expected
where the file lies. -/
theorem summarised_outcome {place names : Location} {bucket : RecordBucket}
    (hdata : Discovery.IsDataFile fs.tree place names)
    (hbucket : Discovery.BucketOf fs config.recordsDir config.rootKey names bucket)
    {d : DataType} (hd : d ∈ r.types) (hname : nameFault? d.name = none) (h : d.LiesAt names) :
    Summarised config fs r names (bucket.outcome r) := by
  obtain ⟨hns, hstem⟩ := (liesAt_iff hname (Discovery.isDataLocation_iff.2 hdata.extension)).1 h
  obtain ⟨⟨segments⟩, dataType, records⟩ := bucket
  obtain ⟨rfl, rfl, hrecords⟩ := hbucket
  refine ⟨d, hd, h, resolved_of_liesAt hdata hd hname h, records, hrecords, ?_⟩
  rw [← summary_eq (Registry.find_eq_ok.2 ⟨hd, hns, hstem⟩), hns, hstem]

/-- A file at the path where a data type is expected is a data file. -/
theorem isDataFile_expected {place target : Location} {content : ByteArray} {d : DataType}
    {extension : String} (hd : d.Named) (hext : extension ∈ dataExtensions)
    (hdir : config.recordsDir.fold? fs.working = some place)
    (hplace : (config.recordsDir.join (d.recordPath extension)).fold? fs.working = some target)
    (hstored : fs.tree.get? target = some (.file content)) :
    ∃ names, target = place ++ names ∧ d.LiesAt names
      ∧ Discovery.IsDataFile fs.tree place names := by
  obtain ⟨hplain, hparts⟩ := parts_recordPath hd hext
  have htarget := (hplain.fold?_join hdir).symm.trans hplace
  rw [hparts] at htarget
  obtain rfl := Option.some.inj htarget
  have hmap : some extension ∈ dataExtensions.map some := List.mem_map_of_mem hext
  refine ⟨_, rfl, ⟨extension, hext, rfl⟩, ⟨content, hstored⟩, _, List.getLast?_concat, ?_⟩
  rw [cutAtDot_recordFile hd.name hext]
  exact hmap

section Files

variable {place : Location} {files : List Location} (hnamed : ∀ d ∈ r.types, d.Named)
  (hloaded : List.Forall₂ (fun names bucket => Discovery.IsDataFile fs.tree place names
    ∧ Discovery.BucketOf fs config.recordsDir config.rootKey names bucket) files buckets)

include hnamed hloaded

/-- **The first bucket that is not registered is that of the first file that lies elsewhere.** -/
theorem error_iff_of_loaded {e : LookupError} :
    (MasterSchema.validate r buckets).result = .error e ↔
      ∃ before names after, files = before ++ names :: after
        ∧ (∀ other ∈ before, ∃ d ∈ r.types, d.LiesAt other)
        ∧ (¬ ∃ d ∈ r.types, d.LiesAt names)
          ∧ e = r.lookupError (stemOf names) ⟨names.dropLast⟩ := by
  rw [validate_error_iff]
  have hiff : ∀ names bucket, Discovery.IsDataFile fs.tree place names
      ∧ Discovery.BucketOf fs config.recordsDir config.rootKey names bucket →
      ((∃ d ∈ r.types, d.LiesAt names) ↔ bucket.Registered r) := fun names bucket h =>
    (Discovery.registered_iff h.2 (Discovery.isDataLocation_iff.2 h.1.extension) hnamed).symm
  refine (first_iff hloaded hiff fun names bucket h => ?_).symm
  have hns : bucket.ns = ⟨names.dropLast⟩ := congrArg Namespace.mk h.2.ns
  rw [hiff names bucket h, hns, h.2.dataType]

/-- If every file lies where a data type is expected, each has its summary. -/
theorem summaries_of_loaded (hbuilt : r.Built)
    (hall : ∀ names ∈ files, ∃ d ∈ r.types, d.LiesAt names) :
    ∃ report, (MasterSchema.validate r buckets).result = .ok report
      ∧ List.Forall₂ (Summarised config fs r) files report.buckets := by
  have hregistered : ∀ bucket ∈ buckets, bucket.Registered r := by
    by_contra hnot
    obtain ⟨before, bucket, after, hsplit, hbefore, hmissing⟩ := first_not_iff.2 hnot
    have herror := validate_error_iff buckets |>.2
      ⟨before, bucket, after, hsplit, hbefore, hmissing, rfl⟩
    obtain ⟨_, names, _, rfl, _, helsewhere, _⟩ := (error_iff_of_loaded hnamed hloaded).1 herror
    exact helsewhere (hall names (List.mem_append_right _ List.mem_cons_self))
  obtain ⟨report, hreport, hcomplete⟩ := validate_ok hbuilt buckets hregistered
  refine ⟨report, hreport, ?_⟩
  rw [hcomplete.summaries, List.forall₂_map_right_iff]
  refine ((List.forall₂_and_left _ _).2 ⟨hall, hloaded⟩).imp fun names bucket h => ?_
  obtain ⟨⟨d, hd, hlies⟩, hdata, hbucket⟩ := h
  exact summarised_outcome hdata hbucket hd (hnamed d hd).name hlies

end Files

/-- **A validation gives a report exactly if every data file below the records directory lies where
a data type of the registry is expected, and then one summary for each data file, in the order of
their discovery; conversely a file at the path where a data type is expected is resolved to that
type. Otherwise the error is that of the first data file that lies elsewhere.** -/
theorem validate_placement (hr : (loadRegistry config fs).result = .ok r)
    (hb : (Discovery.discover fs config.recordsDir config.rootKey).result = .ok buckets) :
    ∃ place files, fs.find config.recordsDir = .ok (place, .directory)
      ∧ Discovery.Discovered fs config.recordsDir config.rootKey place files buckets
      ∧ Placement config fs r place files := by
  obtain ⟨place, files, hfind, hfound⟩ := Discovery.discovered_of_ok hb
  obtain ⟨tree, _, hload⟩ := loadRegistry_eq_ok.1 hr
  have hnamed := Registry.named_of_load hload
  have hdata : ∀ names ∈ files, Discovery.IsDataFile fs.tree place names :=
    fun names hm => (hfound.complete names).1 hm
  have hloaded := (List.forall₂_and_left _ _).2 ⟨hdata, hfound.loaded⟩
  have hsummaries := summaries_of_loaded hnamed hloaded (Registry.built_of_load hload)
  have herror : ∀ e, (validate config fs).result = .error e ↔
      ∃ before names after, files = before ++ names :: after
        ∧ (∀ other ∈ before, ∃ d ∈ r.types, d.LiesAt other)
        ∧ (¬ ∃ d ∈ r.types, d.LiesAt names)
          ∧ e = .lookup (r.lookupError (stemOf names) ⟨names.dropLast⟩) := by
    intro e
    simp only [validate_eq_error hr hb, error_iff_of_loaded hnamed hloaded]
    constructor
    · intro hsome
      obtain ⟨_, ⟨before, names, after, hsplit, hbefore, hnot, rfl⟩, rfl⟩ := hsome
      exact ⟨before, names, after, hsplit, hbefore, hnot, rfl⟩
    · intro hsome
      obtain ⟨before, names, after, hsplit, hbefore, hnot, rfl⟩ := hsome
      exact ⟨_, ⟨before, names, after, hsplit, hbefore, hnot, rfl⟩, rfl⟩
  have hall : ∀ report, (validate config fs).result = .ok report →
      ∀ names ∈ files, ∃ d ∈ r.types, d.LiesAt names := by
    intro report hreport
    by_contra hnot
    obtain ⟨before, names, after, hsplit, hbefore, hnames⟩ := first_not_iff.2 hnot
    cases hreport.symm.trans ((herror _).2 ⟨before, names, after, hsplit, hbefore, hnames, rfl⟩)
  refine ⟨place, files, hfind, hfound, ⟨?_, ?_, ?_, herror⟩⟩
  · constructor
    · intro hsome
      obtain ⟨report, hreport⟩ := hsome
      exact hall report hreport
    · intro h
      obtain ⟨report, hreport, _⟩ := hsummaries h
      exact ⟨report, (validate_eq_ok hr hb).2 hreport⟩
  · intro report hreport
    obtain ⟨report', hreport', hforall⟩ := hsummaries (hall report hreport)
    rwa [Except.ok.inj (((validate_eq_ok hr hb).1 hreport).symm.trans hreport')]
  · intro d hd extension hext target content hplace hstored
    obtain ⟨names, rfl, hlies, hfile⟩ := isDataFile_expected (hnamed d hd) hext
      (FileSystem.find_spec hfind).1 hplace hstored
    exact ⟨names, (hfound.complete names).2 hfile, rfl,
      resolved_of_liesAt hfile hd (hnamed d hd).name hlies⟩

/-- A project with data types in a namespace and at the top, and with records of the first. -/
def filed : Config × FileSystem :=
  ({ layout := { schema := ⟨"a.toml"⟩, records := ⟨"records"⟩ } },
    ⟨.ofEntries [(["a.toml"], .file ("[masterdata.ui.md_A]\ndata_type_name = \"A\"\n"
        ++ "field.id = \"int:PKey\"\n[masterdata.md_B]\ndata_type_name = \"B\"\n"
        ++ "field.no = \"int:PKey\"\n").toUTF8),
      (["records"], .directory), (["records", "ui"], .directory),
      (["records", "ui", "A.toml"], .file "[masterdata.one]\nid = 1\n".toUTF8)], []⟩)

theorem placement_filed : ∃ r buckets, (loadRegistry filed.1 filed.2).result = .ok r
    ∧ (Discovery.discover filed.2 filed.1.recordsDir filed.1.rootKey).result = .ok buckets
    ∧ ∃ place files, filed.2.find filed.1.recordsDir = .ok (place, .directory)
      ∧ Discovery.Discovered filed.2 filed.1.recordsDir filed.1.rootKey place files buckets
      ∧ Placement filed.1 filed.2 r place files := by
  have hloads : (loadRegistry filed.1 filed.2).result.isOk = true := by decide +kernel
  have hfinds : (Discovery.discover filed.2 filed.1.recordsDir filed.1.rootKey).result.isOk
      = true := by decide +kernel
  cases hr : (loadRegistry filed.1 filed.2).result with
  | error e => rw [hr] at hloads; cases hloads
  | ok r =>
    cases hb : (Discovery.discover filed.2 filed.1.recordsDir filed.1.rootKey).result with
    | error e => rw [hb] at hfinds; cases hfinds
    | ok buckets => exact ⟨r, buckets, rfl, rfl, validate_placement hr hb⟩

end Project

end MasterSchema
