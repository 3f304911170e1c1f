import MasterSchema.Proofs.Format.Distinct
import MasterSchema.Proofs.Project.Placement
import MasterSchema.Proofs.Validation.Slices

/-!
# The discrepancies of a project, record by record

The report of a project is made up of the slices of its records. What this needs of the buckets, the
discovery and the readers see to: no two data files are of one data type, and no file that is read
has two records of one key.
-/

namespace MasterSchema

/-- **The table of a data file has no key twice, and no table in it has.** -/
theorem DataFile.distinct_rootTable {fs : FileSystem} {file : Path} {key : String} {table : Table}
    (h : DataFile.rootTable fs file key = .ok table) : table.Distinct := by
  unfold DataFile.rootTable at h
  split at h
  · cases h
  · rename_i whole hcontent
    have hwhole : whole.Distinct := by
      unfold DataFile.content at hcontent
      split at hcontent
      · cases hcontent
      · split at hcontent
        · cases hcontent
        · split at hcontent
          · cases hcontent
          · rename_i hread
            exact Except.ok.inj hcontent ▸ DataFormat.distinct_readTable hread
    unfold DataFile.tableUnder at h
    split at h
    · rename_i hget
      exact Except.ok.inj h ▸ hwhole.get? hget
    · cases h
    · cases h

/-- The records of a bucket that is found have different keys. -/
theorem Discovery.Discovered.distinct_records {fs : FileSystem} {dir : Path} {key : String}
    {place : Location} {files : List Location} {buckets : List RecordBucket}
    (h : Discovered fs dir key place files buckets) :
    ∀ bucket ∈ buckets, bucket.records.Distinct := by
  have hloaded : List.Forall₂ (fun bucket names => bucket.records.Distinct
      ∧ BucketOf fs dir key names bucket) buckets files :=
    h.loaded.flip.imp fun _ _ hof => ⟨DataFile.distinct_rootTable hof.records, hof⟩
  exact ((List.forall₂_and_left _ _).1 hloaded).1

namespace Project

/-- **The report of a project is made up of the slices of its records, without any condition on what
its files hold.** -/
theorem report_sliced {config : Config} {fs : FileSystem} {report : ValidationReport}
    (h : (validate config fs).result = .ok report) : ∃ r buckets,
      (loadRegistry config fs).result = .ok r
        ∧ (Discovery.discover fs config.recordsDir config.rootKey).result = .ok buckets
        ∧ report.Sliced r buckets := by
  obtain ⟨r, buckets, hr, hb, hreport⟩ := exists_of_validate h
  obtain ⟨_, _, _, hfound⟩ := Discovery.discovered_of_ok hb
  have hkeys : ∀ bucket ∈ buckets, bucket.records.keys.Nodup :=
    fun bucket hbucket => (hfound.distinct_records bucket hbucket).keys
  obtain ⟨hregistered, _⟩ := validate_ok_iff.1 hreport
  exact ⟨r, buckets, hr, hb, report.sliced_of_discrepancies hfound.distinct hkeys hregistered
    (discrepancies_of_validate hreport)⟩

end Project

end MasterSchema
