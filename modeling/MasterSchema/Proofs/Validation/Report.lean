import MasterSchema.Proofs.Registry.Built
import MasterSchema.Validation

/-!
# What a validation reports

A validation ends at the first bucket whose data type is not registered; if there is none, its
report is complete.

* `RecordBucket.differences` says what is to be reported of one record, from the names of its fields
  and the declared names alone; `checkRecord_eq` says that this is what a check finds.
* `Complete` says what the whole report is: all differences in order, one summary for each bucket,
  and that report and summaries agree on what is clean.
* `validate_spec` says both of whole runs; each half is an induction on the buckets
  (`validate_error_iff`, `validate_ok_iff`).
-/

namespace MasterSchema

/-! ## 1. One record -/

namespace RecordBucket

/-- A data type of the bucket's name is registered in the bucket's namespace. -/
def Registered (bucket : RecordBucket) (r : Registry) : Prop :=
  ∃ d ∈ r.types, d.ns = bucket.ns ∧ d.name = bucket.dataType

instance (bucket : RecordBucket) (r : Registry) : Decidable (bucket.Registered r) :=
  inferInstanceAs (Decidable (∃ d ∈ r.types, d.ns = bucket.ns ∧ d.name = bucket.dataType))

/-- The names of the fields that are declared for the records of a bucket. -/
def declared (bucket : RecordBucket) (r : Registry) : List String :=
  (r.types.filter fun d => d.ns = bucket.ns ∧ d.name = bucket.dataType).flatMap
    fun d => d.fields.map (·.name)

/-- What is to be reported of a record: the declared fields that it lacks, in the order of the
declaration, and then the fields that it has beyond them, in the order of the record. -/
def differences (bucket : RecordBucket) (r : Registry) (key : String) (record : Value) :
    List Discrepancy :=
  let present := (DataType.recordFields record).keys
  ((bucket.declared r).filter (· ∉ present)).map
      (fun field => ⟨bucket.ns, bucket.dataType, key, field, .missing⟩)
    ++ (present.filter (· ∉ bucket.declared r)).map
      (fun field => ⟨bucket.ns, bucket.dataType, key, field, .unnecessary⟩)

/-- The differences of all records of a bucket, in the order of the records. -/
def allDifferences (bucket : RecordBucket) (r : Registry) : List Discrepancy :=
  bucket.records.flatMap fun (key, record) => bucket.differences r key record

/-- What is to be said of a bucket as a whole. The offending records are those with differences. -/
def outcome (bucket : RecordBucket) (r : Registry) : BucketSummary :=
  { ns := bucket.ns
    dataType := bucket.dataType
    recordCount := bucket.records.length
    offending := (bucket.records.filter fun (key, record) =>
      bucket.differences r key record ≠ []).map (·.1) }

end RecordBucket

namespace DataType

theorem isNone_field? (d : DataType) (name : String) :
    (d.field? name).isNone = decide (name ∉ d.fields.map (·.name)) := by
  rw [Bool.eq_iff_iff]
  simp [field?]

theorem missingFields_eq (d : DataType) (record : Value) : d.missingFields record
    = (d.fields.map (·.name)).filter (· ∉ (recordFields record).keys) := by
  refine List.filter_congr fun name _ => ?_
  rw [Table.contains_eq]
  simp

theorem unnecessaryFields_eq (d : DataType) (record : Value) : d.unnecessaryFields record
    = (recordFields record).keys.filter (· ∉ d.fields.map (·.name)) :=
  List.filter_congr fun name _ => d.isNone_field? name

/-- Two lists of names lack nothing of one another if they have the same members. -/
theorem filters_eq_nil {declared present : List String} :
    (declared.filter (· ∉ present) = [] ∧ present.filter (· ∉ declared) = []) ↔
      ∀ name, name ∈ present ↔ name ∈ declared := by
  simp only [List.filter_eq_nil_iff, decide_eq_true_eq, not_not]
  exact ⟨fun ⟨h, h'⟩ name => ⟨h' name, h name⟩,
    fun h => ⟨fun name => (h name).2, fun name => (h name).1⟩⟩

/-- **Something has the declared fields exactly if it is a table that has them.** What is no table
has no fields, and at least one is declared. -/
theorem recordFields_keys_iff {declared : List String} (hne : declared ≠ []) {record : Value} :
    (∀ name, name ∈ (recordFields record).keys ↔ name ∈ declared) ↔
      ∃ fields : Table, record = .table fields ∧ ∀ name, name ∈ fields.keys ↔ name ∈ declared := by
  cases hr : record.asTable? with
  | some fields =>
    have hrecord : record = .table fields := by
      cases record <;> simp_all [Value.asTable?]
    subst hrecord
    constructor
    · intro hnames
      exact ⟨fields, rfl, hnames⟩
    · intro hsome
      obtain ⟨fields', he, hnames⟩ := hsome
      obtain rfl := Value.table.inj he
      exact hnames
  | none =>
    obtain ⟨name, hname⟩ := List.exists_mem_of_ne_nil _ hne
    have hkeys : (recordFields record).keys = [] := by
      simp [recordFields, hr, Table.keys]
    constructor
    · intro hnames
      have hm := (hnames name).2 hname
      rw [hkeys] at hm
      cases hm
    · intro hsome
      obtain ⟨fields, he, _⟩ := hsome
      rw [he] at hr
      cases hr

/-- **A record is clean exactly if it is a table with the declared fields.** -/
theorem checkRecord_eq_nil {d : DataType} (hne : d.fields ≠ []) {key : String} {record : Value} :
    d.checkRecord key record = [] ↔ ∃ fields : Table, record = .table fields
      ∧ ∀ name, name ∈ fields.keys ↔ name ∈ d.fields.map (·.name) := by
  rw [← recordFields_keys_iff (by simpa using hne), ← filters_eq_nil, checkRecord,
    missingFields_eq, unnecessaryFields_eq, List.append_eq_nil_iff, List.map_eq_nil_iff,
    List.map_eq_nil_iff]

end DataType

section Bucket

variable {r : Registry} {bucket : RecordBucket} {d : DataType}

/-- No two data types have one name in one namespace, so the declared names are those of the one
that is found. -/
theorem RecordBucket.declared_eq (h : r.find bucket.dataType bucket.ns = .ok d) :
    bucket.declared r = d.fields.map (·.name) := by
  obtain ⟨hd, hns, hname⟩ := Registry.find_eq_ok.1 h
  have honly : r.types.filter (fun d => d.ns = bucket.ns ∧ d.name = bucket.dataType) = [d] := by
    have hsame : ∀ other ∈ r.types, (other.ns = bucket.ns ∧ other.name = bucket.dataType)
        ↔ other = d := by
      intro other ho
      constructor
      · intro hkey
        have hkeys : other.key = d.key := by simp [DataType.key, hkey, hns, hname]
        exact Registry.eq_of_key_eq ho hd hkeys
      · intro he
        rw [he]
        exact ⟨hns, hname⟩
    have hfilter : r.types.filter (fun d => d.ns = bucket.ns ∧ d.name = bucket.dataType)
        = r.types.filter (· == d) :=
      List.filter_congr fun other ho => by
        rw [Bool.eq_iff_iff]
        simpa using hsame other ho
    have hnodup : r.types.Nodup := List.Nodup.of_map _ r.distinct
    rw [hfilter, List.filter_beq, List.count_eq_one_of_mem hnodup hd]
    rfl
  rw [RecordBucket.declared, honly, List.flatMap_singleton]

/-- **A check of a record finds the differences, with the bucket's name and namespace.** -/
theorem checkRecord_eq (h : r.find bucket.dataType bucket.ns = .ok d) (key : String)
    (record : Value) : d.checkRecord key record = bucket.differences r key record := by
  obtain ⟨_, hns, hname⟩ := Registry.find_eq_ok.1 h
  rw [DataType.checkRecord, d.missingFields_eq, d.unnecessaryFields_eq, RecordBucket.differences,
    RecordBucket.declared_eq h, hns, hname]

theorem discrepancies_eq (h : r.find bucket.dataType bucket.ns = .ok d) :
    bucket.discrepancies d = bucket.allDifferences r :=
  List.flatMap_congr fun (key, record) _ => checkRecord_eq h key record

theorem summary_eq (h : r.find bucket.dataType bucket.ns = .ok d) :
    bucket.summary d = bucket.outcome r := by
  have hoffending : bucket.records.filter (fun (key, record) => !(d.checkRecord key record).isEmpty)
      = bucket.records.filter fun (key, record) => bucket.differences r key record ≠ [] := by
    refine List.filter_congr fun (key, record) _ => ?_
    show (!(d.checkRecord key record).isEmpty) = decide (bucket.differences r key record ≠ [])
    rw [checkRecord_eq h key record, Bool.eq_iff_iff]
    simp
  rw [RecordBucket.summary, RecordBucket.outcome, hoffending]

/-- A registered bucket has declared fields, its primary key among them. -/
theorem RecordBucket.declared_ne_nil (hbuilt : r.Built) (h : bucket.Registered r) :
    bucket.declared r ≠ [] := by
  obtain ⟨d, hd⟩ := h
  rw [RecordBucket.declared_eq (Registry.find_eq_ok.2 hd)]
  obtain ⟨_, haccepted⟩ := hbuilt.accepted d hd.1
  simpa using haccepted.fields_ne_nil

/-- A difference has the namespace and the data type of the bucket, and the key of the record. -/
theorem RecordBucket.of_mem_differences {key : String} {record : Value} {found : Discrepancy}
    (h : found ∈ bucket.differences r key record) :
    found.ns = bucket.ns ∧ found.dataType = bucket.dataType ∧ found.record = key := by
  rcases List.mem_append.1 h with h | h <;> obtain ⟨field, _, rfl⟩ := List.mem_map.1 h <;>
    exact ⟨rfl, rfl, rfl⟩

theorem RecordBucket.differences_eq_nil {key : String} {record : Value} :
    bucket.differences r key record = [] ↔
      ∀ name, name ∈ (DataType.recordFields record).keys ↔ name ∈ bucket.declared r := by
  rw [differences, List.append_eq_nil_iff, List.map_eq_nil_iff, List.map_eq_nil_iff,
    DataType.filters_eq_nil]

/-- **A record has no differences exactly if it is a table with the declared fields.** Something
else than a table has no fields, and so it lacks at least the primary key. -/
theorem RecordBucket.differences_eq_nil_iff (hbuilt : r.Built) (h : bucket.Registered r)
    {key : String} {record : Value} :
    bucket.differences r key record = [] ↔
      ∃ fields : Table, record = .table fields
        ∧ ∀ name, name ∈ fields.keys ↔ name ∈ bucket.declared r := by
  rw [differences_eq_nil, DataType.recordFields_keys_iff (declared_ne_nil hbuilt h)]

theorem RecordBucket.isClean_outcome (bucket : RecordBucket) (r : Registry) :
    (bucket.outcome r).isClean = true ↔ bucket.allDifferences r = [] := by
  simp [BucketSummary.isClean, outcome, allDifferences]

end Bucket

/-! ## 2. Runs -/

/-- What a run that is not ended reports: all differences in order, one summary for each bucket, and
nothing at all exactly if all buckets are clean. -/
structure ValidationReport.Complete (report : ValidationReport) (r : Registry)
    (buckets : List RecordBucket) : Prop where
  discrepancies : report.discrepancies = buckets.flatMap fun bucket => bucket.allDifferences r
  summaries : report.buckets = buckets.map fun bucket => bucket.outcome r
  /-- A record without differences is a table with the declared fields, and conversely. -/
  free_iff : ∀ bucket ∈ buckets, ∀ key record, bucket.differences r key record = [] ↔
    ∃ fields : Table, record = .table fields
      ∧ ∀ name, name ∈ fields.keys ↔ name ∈ bucket.declared r
  clean_iff : report.isClean = true ↔ ∀ summary ∈ report.buckets, summary.isClean = true

section Run

variable {r : Registry}

theorem validate_cons (r : Registry) (bucket : RecordBucket) (rest : List RecordBucket) :
    (validate r (bucket :: rest)).result =
      match r.find bucket.dataType bucket.ns with
      | .error e => .error e
      | .ok d => (validate r rest).result.map fun report =>
          ⟨bucket.summary d :: report.buckets, bucket.discrepancies d ++ report.discrepancies⟩ := by
  rw [validate]
  cases r.find bucket.dataType bucket.ns with
  | error e => rfl
  | ok d =>
    simp only [Logged.after, Logged.andThen]
    cases (validate r rest).result <;> rfl

/-- **A run ends at the first bucket that is not registered.** -/
theorem validate_error_iff : ∀ (buckets : List RecordBucket) {e : LookupError},
    (validate r buckets).result = .error e ↔
      ∃ before bucket after, buckets = before ++ bucket :: after
        ∧ (∀ b ∈ before, b.Registered r) ∧ ¬ bucket.Registered r
        ∧ e = r.lookupError bucket.dataType bucket.ns
  | [], e => by simp [validate, Logged.ok]
  | bucket :: rest, e => by
      have ih := @validate_error_iff rest e
      rw [validate_cons]
      cases hfind : r.find bucket.dataType bucket.ns with
      | error cause =>
        obtain ⟨hmissing, rfl⟩ := Registry.find_eq_error.1 hfind
        constructor
        · intro h
          exact ⟨[], bucket, rest, rfl, by simp, hmissing, (Except.error.inj h).symm⟩
        · intro hsome
          obtain ⟨before, other, after, hsplit, hbefore, _, rfl⟩ := hsome
          cases before with
          | nil =>
            obtain ⟨rfl, _⟩ := List.cons.inj hsplit
            rfl
          | cons first before =>
            obtain ⟨rfl, _⟩ := List.cons.inj hsplit
            exact absurd (hbefore bucket List.mem_cons_self) hmissing
      | ok d =>
        have hthere : bucket.Registered r := ⟨d, Registry.find_eq_ok.1 hfind⟩
        have hmap : ((validate r rest).result.map fun report => (⟨bucket.summary d
            :: report.buckets, bucket.discrepancies d ++ report.discrepancies⟩
              : ValidationReport)) = .error e ↔ (validate r rest).result = .error e := by
          cases (validate r rest).result <;> simp [Except.map]
        rw [hmap, ih]
        constructor
        · intro hsome
          obtain ⟨before, other, after, rfl, hbefore, hrest⟩ := hsome
          refine ⟨bucket :: before, other, after, rfl, ?_, hrest⟩
          intro b hb
          rcases List.mem_cons.1 hb with rfl | hb
          · exact hthere
          · exact hbefore b hb
        · intro hsome
          obtain ⟨before, other, after, hsplit, hbefore, hother, he⟩ := hsome
          cases before with
          | nil =>
            obtain ⟨rfl, _⟩ := List.cons.inj hsplit
            exact absurd hthere hother
          | cons first before =>
            obtain ⟨_, rfl⟩ := List.cons.inj hsplit
            exact ⟨before, other, after, rfl, fun b hb => hbefore b (List.mem_cons_of_mem _ hb),
              hother, he⟩

/-- Report and summaries agree on what is clean: nothing is reported exactly if no record of any
bucket is offending. -/
theorem isClean_iff {report : ValidationReport} {buckets : List RecordBucket}
    (hdiscrepancies : report.discrepancies = buckets.flatMap fun bucket => bucket.allDifferences r)
    (hsummaries : report.buckets = buckets.map fun bucket => bucket.outcome r) :
    report.isClean = true ↔ ∀ summary ∈ report.buckets, summary.isClean = true := by
  rw [hsummaries]
  simp [ValidationReport.isClean, hdiscrepancies, BucketSummary.isClean,
    RecordBucket.allDifferences, RecordBucket.outcome]

/-- **A run gives a report exactly if all buckets are registered, and the report says of each bucket
what comes out for it.** -/
theorem validate_ok_iff {buckets : List RecordBucket} {report : ValidationReport} :
    (validate r buckets).result = .ok report ↔ (∀ bucket ∈ buckets, bucket.Registered r)
      ∧ report = ⟨buckets.map fun bucket => bucket.outcome r,
          buckets.flatMap fun bucket => bucket.allDifferences r⟩ := by
  induction buckets generalizing report with
  | nil =>
    rw [validate, Logged.ok, Except.ok.injEq, eq_comm]
    simp
  | cons bucket rest ih =>
    rw [validate_cons, List.forall_mem_cons]
    cases hfind : r.find bucket.dataType bucket.ns with
    | error e =>
      have hmissing : ¬ bucket.Registered r := (Registry.find_eq_error.1 hfind).1
      exact iff_of_false nofun fun h => hmissing h.1.1
    | ok d =>
      have hthere : bucket.Registered r := ⟨d, Registry.find_eq_ok.1 hfind⟩
      simp only [summary_eq hfind, discrepancies_eq hfind]
      rw [and_iff_right hthere]
      cases hrest : (validate r rest).result with
      | error e =>
        refine iff_of_false nofun fun h => ?_
        cases hrest.symm.trans (ih.2 ⟨h.1, rfl⟩)
      | ok others =>
        obtain ⟨hregistered, rfl⟩ := ih.1 hrest
        rw [and_iff_right hregistered, Except.map, Except.ok.injEq, eq_comm]
        rfl

/-- **A run over registered buckets ends with a complete report.** -/
theorem validate_ok (hbuilt : r.Built) (buckets : List RecordBucket)
    (h : ∀ bucket ∈ buckets, bucket.Registered r) :
    ∃ report, (validate r buckets).result = .ok report ∧ report.Complete r buckets :=
  ⟨_, validate_ok_iff.2 ⟨h, rfl⟩, rfl, rfl,
    fun bucket hm _ _ => bucket.differences_eq_nil_iff hbuilt (h bucket hm), isClean_iff rfl rfl⟩

/-- **A validation ends at the first bucket that is not registered, with the error of its lookup;
if all buckets are registered, it gives a complete report.** -/
theorem validate_spec (hbuilt : r.Built) (buckets : List RecordBucket) :
    (∀ e, (validate r buckets).result = .error e ↔
      ∃ before bucket after, buckets = before ++ bucket :: after
        ∧ (∀ b ∈ before, b.Registered r) ∧ ¬ bucket.Registered r
        ∧ e = r.lookupError bucket.dataType bucket.ns)
    ∧ ((∀ bucket ∈ buckets, bucket.Registered r) →
      ∃ report, (validate r buckets).result = .ok report ∧ report.Complete r buckets) :=
  ⟨fun _ => validate_error_iff buckets, validate_ok hbuilt buckets⟩

end Run

/-- A schema with a data type of the same name in two namespaces. -/
def entryTree : Table :=
  [("kanji", .table [("md_Entry", .table [("data_type_name", .text "Entry"),
    ("field", .table [("id", .text "int:PKey"), ("character", .text "string")])])]),
   ("word", .table [("md_Entry", .table [("data_type_name", .text "Entry"),
    ("field", .table [("id", .text "int:PKey"), ("reading", .text "string")])])])]

/-- Its registry. -/
def entries : Registry := (Registry.load {} entryTree).result.toOption.getD .empty

theorem entries_built : entries.Built := by
  unfold entries
  cases h : (Registry.load _ _).result with
  | error e => exact .empty
  | ok r => exact Registry.built_of_load h

/-- A record that lacks a field, one that is no table, and one with a field too many. -/
def entryBuckets : List RecordBucket :=
  [⟨⟨["kanji"]⟩, "Entry", [("yama", .table [("id", .integer 0)]), ("kawa", .integer 1)]⟩,
   ⟨⟨["word"]⟩, "Entry", [("yama", .table [("id", .integer 0), ("reading", .text "yama"),
      ("note", .text "")])]⟩]

theorem validate_entries :
    (entries.Built ∧ ∀ bucket ∈ entryBuckets, bucket.Registered entries)
      ∧ (∃ report, (validate entries entryBuckets).result = .ok report
        ∧ report.Complete entries entryBuckets)
      ∧ (validate entries (⟨⟨["kanji"]⟩, "Word", []⟩ :: entryBuckets)).result
        = .error (.unknownDataType ⟨["kanji"]⟩ "Word") := by
  have hregistered : ∀ bucket ∈ entryBuckets, bucket.Registered entries := by decide +kernel
  have hstray : (validate entries (⟨⟨["kanji"]⟩, "Word", []⟩ :: entryBuckets)).result
      = .error (.unknownDataType ⟨["kanji"]⟩ "Word") :=
    ((validate_spec entries_built (⟨⟨["kanji"]⟩, "Word", []⟩ :: entryBuckets)).1
      (.unknownDataType ⟨["kanji"]⟩ "Word")).2
      ⟨[], _, entryBuckets, rfl, by simp, by decide +kernel, by decide +kernel⟩
  exact ⟨⟨entries_built, hregistered⟩,
    (validate_spec entries_built entryBuckets).2 hregistered, hstray⟩

end MasterSchema
