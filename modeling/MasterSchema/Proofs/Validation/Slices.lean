import MasterSchema.Proofs.Validation.Report

/-!
# The discrepancies of single records

A report holds the discrepancies of all records in one list. Namespace, data type and key say which
record a discrepancy is of (`RecordPlace`), and what a report has under one place is its slice.

* `filter_flatMap_apart`: parts of a list whose members carry the key of their part are found again
  by the key, if no two parts have one key.
* `Sliced` says that the slices of all records make up the report (`sliced_of_discrepancies`);
  `sliced_of_validate` says so of every run over buckets that are told apart by namespace and data
  type.
-/

namespace MasterSchema

/-! ## 1. Places -/

/-- What tells one record from all others: namespace and data type of its bucket, and its key. -/
structure RecordPlace where
  ns : Namespace
  dataType : String
  key : String
  deriving DecidableEq

/-- The place of the record that a discrepancy is of. -/
def Discrepancy.place (d : Discrepancy) : RecordPlace := ⟨d.ns, d.dataType, d.record⟩

namespace RecordBucket

/-- The place of a record of a bucket. -/
def placeOf (bucket : RecordBucket) (key : String) : RecordPlace :=
  ⟨bucket.ns, bucket.dataType, key⟩

/-- The places of a bucket's records, in the order of the records. -/
def places (bucket : RecordBucket) : List RecordPlace :=
  bucket.records.keys.map bucket.placeOf

end RecordBucket

/-- What a report has under a place. -/
def ValidationReport.slice (report : ValidationReport) (place : RecordPlace) : List Discrepancy :=
  report.forRecord place.ns place.dataType place.key

theorem ValidationReport.slice_eq (report : ValidationReport) (place : RecordPlace) :
    report.slice place = report.discrepancies.filter (·.place = place) := by
  refine List.filter_congr fun d _ => ?_
  obtain ⟨ns, dataType, key⟩ := place
  rw [Bool.eq_iff_iff, decide_eq_true_eq, Discrepancy.place, RecordPlace.mk.injEq]
  simp [and_assoc]

theorem RecordBucket.placeOf_inj {bucket other : RecordBucket} {key key' : String} :
    bucket.placeOf key = other.placeOf key' ↔
      (bucket.ns, bucket.dataType) = (other.ns, other.dataType) ∧ key = key' := by
  rw [placeOf, placeOf, RecordPlace.mk.injEq, Prod.mk.injEq, and_assoc]

/-- The differences of a record carry its place. -/
theorem RecordBucket.place_of_mem {bucket : RecordBucket} {r : Registry} {key : String}
    {record : Value} {d : Discrepancy} (h : d ∈ bucket.differences r key record) :
    d.place = bucket.placeOf key := by
  obtain ⟨hns, hdataType, hkey⟩ := RecordBucket.of_mem_differences h
  rw [Discrepancy.place, RecordBucket.placeOf, hns, hdataType, hkey]

/-- No two records have one place, if no two buckets have one namespace and data type and no two
records of a bucket one key. -/
theorem nodup_places {buckets : List RecordBucket}
    (hdistinct : (buckets.map fun bucket => (bucket.ns, bucket.dataType)).Nodup)
    (hkeys : ∀ bucket ∈ buckets, bucket.records.keys.Nodup) :
    (buckets.flatMap RecordBucket.places).Nodup := by
  rw [List.nodup_flatMap]
  refine ⟨fun bucket hbucket => ?_, ?_⟩
  · exact (hkeys bucket hbucket).map fun _ _ h => (RecordBucket.placeOf_inj.1 h).2
  · refine (List.pairwise_map.1 hdistinct).imp fun hapart place hplace hother => ?_
    obtain ⟨key, _, rfl⟩ := List.mem_map.1 hplace
    obtain ⟨key', _, h⟩ := List.mem_map.1 hother
    exact hapart (RecordBucket.placeOf_inj.1 h).1.symm

/-! ## 2. Slices -/

section Apart

variable {α β κ : Type} [DecidableEq κ] {parts : List α} {members : α → List β} {key : α → κ}
  {keyOf : β → κ}

/-- Under a key that no part has, no member is found. -/
theorem filter_flatMap_none (hkey : ∀ a ∈ parts, ∀ b ∈ members a, keyOf b = key a) {k : κ}
    (hk : ∀ a ∈ parts, key a ≠ k) : (parts.flatMap members).filter (keyOf · = k) = [] := by
  rw [List.filter_eq_nil_iff]
  intro b hb
  obtain ⟨a, ha, hb⟩ := List.mem_flatMap.1 hb
  rw [decide_eq_true_eq, hkey a ha b hb]
  exact hk a ha

/-- **Under the key of a part its members are found, in their order.** -/
theorem filter_flatMap_apart (hkey : ∀ a ∈ parts, ∀ b ∈ members a, keyOf b = key a)
    (hapart : (parts.map key).Nodup) {a : α} (ha : a ∈ parts) :
    (parts.flatMap members).filter (keyOf · = key a) = members a := by
  induction parts with
  | nil => cases ha
  | cons first rest ih =>
    rw [List.map_cons, List.nodup_cons] at hapart
    obtain ⟨hfirst, hrest⟩ := List.forall_mem_cons.1 hkey
    rw [List.flatMap_cons, List.filter_append]
    rcases List.mem_cons.1 ha with rfl | ha
    · have hall : (members a).filter (keyOf · = key a) = members a :=
        List.filter_eq_self.2 fun b hb => decide_eq_true (hfirst b hb)
      have hnone : (rest.flatMap members).filter (keyOf · = key a) = [] :=
        filter_flatMap_none hrest fun other ho he => hapart.1 (he ▸ List.mem_map_of_mem ho)
      rw [hall, hnone, List.append_nil]
    · have hnone : (members first).filter (keyOf · = key a) = [] := by
        refine List.filter_eq_nil_iff.2 fun b hb => ?_
        rw [decide_eq_true_eq, hfirst b hb]
        exact fun he => hapart.1 (he ▸ List.mem_map_of_mem ha)
      rw [hnone, List.nil_append, ih hrest hapart.2 ha]

end Apart

/-- The slices of the records make up a report. -/
structure ValidationReport.Sliced (report : ValidationReport) (r : Registry)
    (buckets : List RecordBucket) : Prop where
  /-- Under the place of a record stands what a check of the record finds, in the same order. -/
  of_record : ∀ bucket ∈ buckets, ∃ d, r.find bucket.dataType bucket.ns = .ok d
    ∧ ∀ key record, (key, record) ∈ bucket.records →
      report.forRecord bucket.ns bucket.dataType key = d.checkRecord key record
  /-- Where no record is, nothing stands. -/
  elsewhere : ∀ ns dataType key,
    (¬ ∃ bucket ∈ buckets, bucket.ns = ns ∧ bucket.dataType = dataType
      ∧ key ∈ bucket.records.keys) → report.forRecord ns dataType key = []
  /-- One slice behind the other, in the order of the records, gives the whole list. -/
  joined : (buckets.flatMap RecordBucket.places).flatMap report.slice = report.discrepancies
  places_nodup : (buckets.flatMap RecordBucket.places).Nodup
  /-- A discrepancy is in the slice of one record and in no other. -/
  once : ∀ d ∈ report.discrepancies,
    ∃! place, place ∈ buckets.flatMap RecordBucket.places ∧ d ∈ report.slice place

/-- The records of all buckets, each with its bucket. -/
def allRecords (buckets : List RecordBucket) : List (RecordBucket × String × Value) :=
  buckets.flatMap fun bucket => bucket.records.map fun entry => (bucket, entry)

section Sliced

variable {r : Registry} {buckets : List RecordBucket} {report : ValidationReport}

theorem mem_allRecords {bucket : RecordBucket} {key : String} {record : Value} :
    (bucket, key, record) ∈ allRecords buckets ↔
      bucket ∈ buckets ∧ (key, record) ∈ bucket.records := by
  simp [allRecords]

theorem places_eq : buckets.flatMap RecordBucket.places
    = (allRecords buckets).map fun entry => entry.1.placeOf entry.2.1 := by
  rw [allRecords, List.map_flatMap]
  refine List.flatMap_congr fun bucket _ => ?_
  rw [RecordBucket.places, Table.keys, List.map_map, List.map_map]
  rfl

/-- What a run reports are the differences of all records. -/
theorem discrepancies_of_validate (h : (validate r buckets).result = .ok report) :
    report.discrepancies = (allRecords buckets).flatMap fun entry =>
      entry.1.differences r entry.2.1 entry.2.2 := by
  obtain ⟨_, rfl⟩ := validate_ok_iff.1 h
  rw [allRecords, List.flatMap_assoc]
  refine List.flatMap_congr fun bucket _ => ?_
  rw [List.flatMap_map]
  rfl

/-- **A list of the differences of all records is made up of their slices.** -/
theorem ValidationReport.sliced_of_discrepancies
    (hdistinct : (buckets.map fun bucket => (bucket.ns, bucket.dataType)).Nodup)
    (hkeys : ∀ bucket ∈ buckets, bucket.records.keys.Nodup)
    (hregistered : ∀ bucket ∈ buckets, bucket.Registered r)
    (hlist : report.discrepancies = (allRecords buckets).flatMap fun entry =>
      entry.1.differences r entry.2.1 entry.2.2) : report.Sliced r buckets := by
  have hnodup := nodup_places hdistinct hkeys
  have hplace : ∀ entry ∈ allRecords buckets, ∀ d ∈ entry.1.differences r entry.2.1 entry.2.2,
      d.place = entry.1.placeOf entry.2.1 :=
    fun _ _ _ hd => RecordBucket.place_of_mem hd
  have hslice : ∀ entry ∈ allRecords buckets, report.slice (entry.1.placeOf entry.2.1)
      = entry.1.differences r entry.2.1 entry.2.2 := by
    intro entry hentry
    rw [report.slice_eq, hlist]
    exact filter_flatMap_apart hplace (places_eq ▸ hnodup) hentry
  refine ⟨fun bucket hbucket => ?_, fun ns dataType key hnone => ?_, ?_, hnodup, fun d hd => ?_⟩
  · obtain ⟨d, hd⟩ := hregistered bucket hbucket
    have hfind := Registry.find_eq_ok.2 hd
    refine ⟨d, hfind, fun key record hrecord => ?_⟩
    rw [checkRecord_eq hfind]
    exact hslice (bucket, key, record) (mem_allRecords.2 ⟨hbucket, hrecord⟩)
  · show report.slice ⟨ns, dataType, key⟩ = []
    rw [report.slice_eq, hlist]
    refine filter_flatMap_none hplace fun ⟨bucket, key', record⟩ hentry he => hnone ?_
    obtain ⟨hbucket, hrecord⟩ := mem_allRecords.1 hentry
    obtain ⟨hns, hdataType, hkey⟩ := RecordPlace.mk.inj he
    exact ⟨bucket, hbucket, hns, hdataType, hkey ▸ List.mem_map_of_mem hrecord⟩
  · rw [places_eq, List.flatMap_map, hlist]
    exact List.flatMap_congr hslice
  · have hown : ∀ place, d ∈ report.slice place ↔ d.place = place := by
      intro place
      rw [report.slice_eq, List.mem_filter, decide_eq_true_eq, and_iff_right hd]
    rw [hlist] at hd
    obtain ⟨entry, hentry, hmem⟩ := List.mem_flatMap.1 hd
    refine ⟨d.place, ⟨?_, (hown d.place).2 rfl⟩, fun place hother => ((hown place).1 hother.2).symm⟩
    rw [hplace entry hentry d hmem, places_eq]
    exact List.mem_map_of_mem hentry

/-- **The slices of the records make up the report of a run.** Under each record stands what a check
of it finds, nothing stands elsewhere, and nothing is lost or there twice. No two buckets are of one
data type, which a discovery sees to, and no two records of a bucket have one key, as in any table
that is read. -/
theorem sliced_of_validate
    (hdistinct : (buckets.map fun bucket => (bucket.ns, bucket.dataType)).Nodup)
    (hkeys : ∀ bucket ∈ buckets, bucket.records.keys.Nodup)
    (h : (validate r buckets).result = .ok report) : report.Sliced r buckets := by
  obtain ⟨hregistered, _⟩ := validate_ok_iff.1 h
  exact report.sliced_of_discrepancies hdistinct hkeys hregistered (discrepancies_of_validate h)

end Sliced

/-- Two buckets hold a record `yama` of a data type `Entry`, and each has its own. -/
theorem sliced_entries :
    (entryBuckets.map fun bucket => (bucket.ns, bucket.dataType)).Nodup
      ∧ (∀ bucket ∈ entryBuckets, bucket.records.keys.Nodup)
      ∧ ∃ report, (validate entries entryBuckets).result = .ok report
        ∧ report.Sliced entries entryBuckets
        ∧ (report.forRecord ⟨["kanji"]⟩ "Entry" "yama").map (·.field) = ["character"]
        ∧ (report.forRecord ⟨["word"]⟩ "Entry" "yama").map (·.field) = ["note"] := by
  have hdistinct : (entryBuckets.map fun bucket => (bucket.ns, bucket.dataType)).Nodup := by
    decide +kernel
  have hkeys : ∀ bucket ∈ entryBuckets, bucket.records.keys.Nodup := by decide +kernel
  have hregistered : ∀ bucket ∈ entryBuckets, bucket.Registered entries := by decide +kernel
  have hrun := validate_ok_iff.2 ⟨hregistered, rfl⟩
  exact ⟨hdistinct, hkeys, _, hrun, sliced_of_validate hdistinct hkeys hrun, by decide +kernel,
    by decide +kernel⟩

end MasterSchema
