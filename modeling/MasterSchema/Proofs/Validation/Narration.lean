import Mathlib.Data.List.TakeWhile
import MasterSchema.Proofs.Validation.Report

/-!
# What a validation logs

A validation logs while it checks, and what it logs is not taken from its report. Still the two
agree, also where a run ends at a bucket that is not registered and gives no report.

* `LineMark` are the ways in which the lines of the log begin. None of them begins another
  (`eq_of_isPrefix`), and so the lines of one kind can be picked out of a log (`linesUnder`).
* `bucketLines` are the lines of a bucket, made of what is to be reported of its records.
  `lines_events` says that checking the bucket logs them, and `lines_validate` that a run logs the
  lines of the known buckets one after the other.
* `Narrated` compares the lines of each kind with the report; `narrated_validate` says so of every
  run.
-/

namespace MasterSchema

/-! ## 1. Marks -/

/-- How a line of the log begins. -/
inductive LineMark where
  /-- A bucket is going to be checked. -/
  | announcement
  /-- The fields follow that a record lacks, or those it has in excess. -/
  | header (kind : DiscrepancyKind)
  | field
  /-- A bucket was found to have no discrepancies. -/
  | clean
  deriving DecidableEq

namespace LineMark

def text : LineMark → String
  | .announcement => "INFO validate... : "
  | .header kind => "ERROR The submitted data contains " ++ kind.message ++ " fields. (key: ["
  | .field => "ERROR > "
  | .clean => "INFO All data is validated : "

/-- A line with a mark. -/
def line (mark : LineMark) (rest : String) : String := mark.text ++ rest

def all : List LineMark :=
  [.announcement, .header .missing, .header .unnecessary, .field, .clean]

theorem mem_all (mark : LineMark) : mark ∈ all := by
  rcases mark with _ | (_ | _) | _ | _ <;> decide

/-- No mark begins another one. -/
theorem eq_of_isPrefix {mark other : LineMark} (h : mark.text.toList <+: other.text.toList) :
    mark = other := by
  have hall : ∀ mark ∈ all, ∀ other ∈ all,
      mark.text.toList <+: other.text.toList → mark = other := by decide
  exact hall mark mark.mem_all other other.mem_all h

/-- A line begins with the mark that it was given and with no other. -/
theorem isPrefix_line {mark other : LineMark} {rest : String} :
    mark.text.toList <+: (other.line rest).toList ↔ mark = other := by
  rw [line, String.toList_append]
  constructor
  · intro h
    rcases List.prefix_or_prefix_of_prefix h (List.prefix_append _ _) with h | h
    · exact eq_of_isPrefix h
    · exact (eq_of_isPrefix h).symm
  · intro h
    rw [h]
    exact List.prefix_append _ _

end LineMark

/-- The lines of a log that have a mark, in their order. -/
def linesUnder (mark : LineMark) (lines : List String) : List String :=
  lines.filter fun line => mark.text.toList.isPrefixOf line.toList

section Under

variable {mark other : LineMark} {rest : String} {lines lines' : List String}

theorem linesUnder_append :
    linesUnder mark (lines ++ lines') = linesUnder mark lines ++ linesUnder mark lines' :=
  List.filter_append _ _

theorem linesUnder_flatMap {α : Type} {l : List α} {f : α → List String} :
    linesUnder mark (l.flatMap f) = l.flatMap fun a => linesUnder mark (f a) :=
  List.filter_flatMap

theorem linesUnder_cons : linesUnder mark (other.line rest :: lines)
    = (if mark = other then [other.line rest] else []) ++ linesUnder mark lines := by
  rw [linesUnder, List.filter_cons]
  by_cases h : mark = other
  · rw [if_pos (List.isPrefixOf_iff_prefix.2 (LineMark.isPrefix_line.2 h)), if_pos h]
    rfl
  · rw [if_neg fun hm => h (LineMark.isPrefix_line.1 (List.isPrefixOf_iff_prefix.1 hm)), if_neg h]
    rfl

theorem linesUnder_map {α : Type} {l : List α} {f : α → String} :
    linesUnder mark (l.map fun a => other.line (f a))
      = if mark = other then l.map fun a => other.line (f a) else [] := by
  induction l with
  | nil => simp [linesUnder]
  | cons a l ih =>
    rw [List.map_cons, linesUnder_cons, ih]
    split <;> rfl

end Under

/-! ## 2. The lines of a bucket -/

def announcementLine (bucket : RecordBucket) : String :=
  LineMark.announcement.line (bucket.dataType ++ " (" ++ bucket.ns.toString ++ ")")

def headerLine (kind : DiscrepancyKind) (key : String) : String :=
  (LineMark.header kind).line (key ++ "])")

def fieldLine (d : Discrepancy) : String := LineMark.field.line d.field

def cleanLine (summary : BucketSummary) : String :=
  LineMark.clean.line (toString summary.recordCount ++ " records in " ++ summary.dataType ++ " ("
    ++ summary.ns.toString ++ ")")

/-- The lines on discrepancies of one kind: a header with the key of the record, and under it the
fields; nothing if there are none. -/
def kindLines (kind : DiscrepancyKind) (key : String) (found : List Discrepancy) : List String :=
  match found.filter (·.kind = kind) with
  | [] => []
  | first :: others => headerLine kind key :: (first :: others).map fieldLine

/-- The lines on a record: first the fields that it lacks, then those it has in excess. -/
def recordLines (key : String) (found : List Discrepancy) : List String :=
  kindLines .missing key found ++ kindLines .unnecessary key found

/-- The lines on a bucket: its announcement, the lines on its records in their order, and at the end
that it is clean, if nothing is to be reported of it. -/
def bucketLines (r : Registry) (bucket : RecordBucket) : List String :=
  announcementLine bucket
    :: bucket.records.flatMap (fun (key, record) =>
        recordLines key (bucket.differences r key record))
    ++ if bucket.allDifferences r = [] then [cleanLine (bucket.outcome r)] else []

section Lines

variable {r : Registry} {bucket : RecordBucket} {d : DataType} {kind : DiscrepancyKind}
  {key : String} {record : Value}

theorem line_validating :
    (Event.validating bucket.dataType bucket.ns).line = announcementLine bucket := by
  show "INFO" ++ " " ++ ("validate... : " ++ bucket.dataType ++ " (" ++ bucket.ns.toString ++ ")")
    = "INFO validate... : " ++ (bucket.dataType ++ " (" ++ bucket.ns.toString ++ ")")
  simp [← String.append_assoc]

theorem line_fieldsMissing : (Event.fieldsMissing key).line = headerLine .missing key := by
  show "ERROR" ++ " " ++ ("The submitted data contains missing fields. (key: [" ++ key ++ "])")
    = "ERROR The submitted data contains " ++ "missing" ++ " fields. (key: [" ++ (key ++ "])")
  simp [← String.append_assoc]

theorem line_fieldsUnnecessary :
    (Event.fieldsUnnecessary key).line = headerLine .unnecessary key := by
  show "ERROR" ++ " " ++ ("The submitted data contains unnecessary fields. (key: [" ++ key ++ "])")
    = "ERROR The submitted data contains " ++ "unnecessary" ++ " fields. (key: [" ++ (key ++ "])")
  simp [← String.append_assoc]

theorem line_offendingField (found : Discrepancy) :
    (Event.offendingField found.field).line = fieldLine found := by
  show "ERROR" ++ " " ++ ("> " ++ found.field) = "ERROR > " ++ found.field
  simp [← String.append_assoc]

theorem line_bucketClean :
    (Event.bucketClean bucket.records.length bucket.dataType bucket.ns).line
      = cleanLine (bucket.outcome r) := by
  show "INFO" ++ " " ++ ("All data is validated : " ++ toString bucket.records.length
      ++ " records in " ++ bucket.dataType ++ " (" ++ bucket.ns.toString ++ ")")
    = "INFO All data is validated : " ++ (toString bucket.records.length ++ " records in "
      ++ bucket.dataType ++ " (" ++ bucket.ns.toString ++ ")")
  simp [← String.append_assoc]

/-- What is logged under a header are the lines on the discrepancies of its kind. -/
theorem lines_fieldEvents {header : Event} {found : List Discrepancy} {fields : List String}
    (hheader : header.line = headerLine kind key)
    (hfields : (found.filter (·.kind = kind)).map (·.field) = fields) :
    (DataType.fieldEvents header fields).map Event.line = kindLines kind key found := by
  rw [← hfields, kindLines]
  cases found.filter (·.kind = kind) with
  | nil => rfl
  | cons first others =>
    show header.line :: (((first :: others).map (·.field)).map Event.offendingField).map Event.line
      = headerLine kind key :: (first :: others).map fieldLine
    rw [hheader, List.map_map, List.map_map]
    exact congrArg _ (List.map_congr_left fun found _ => line_offendingField found)

theorem DataType.missing_checkRecord :
    ((d.checkRecord key record).filter (·.kind = .missing)).map (·.field)
      = d.missingFields record := by
  simp [checkRecord, List.filter_append, List.filter_map, Function.comp_def]

theorem DataType.unnecessary_checkRecord :
    ((d.checkRecord key record).filter (·.kind = .unnecessary)).map (·.field)
      = d.unnecessaryFields record := by
  simp [checkRecord, List.filter_append, List.filter_map, Function.comp_def]

/-- **Checking a record logs the lines on what the check finds.** -/
theorem lines_recordEvents : (d.recordEvents key record).map Event.line
    = recordLines key (d.checkRecord key record) := by
  rw [DataType.recordEvents, List.map_append, recordLines,
    lines_fieldEvents line_fieldsMissing DataType.missing_checkRecord,
    lines_fieldEvents line_fieldsUnnecessary DataType.unnecessary_checkRecord]

/-- **Checking a bucket logs its lines.** -/
theorem lines_events (h : r.find bucket.dataType bucket.ns = .ok d) :
    announcementLine bucket :: (bucket.events d).map Event.line = bucketLines r bucket := by
  have hrecords : (bucket.records.flatMap fun (key, record) => d.recordEvents key record).map
      Event.line = bucket.records.flatMap fun (key, record) =>
        recordLines key (bucket.differences r key record) := by
    rw [List.map_flatMap]
    refine List.flatMap_congr fun (key, record) _ => ?_
    rw [lines_recordEvents, checkRecord_eq h]
  rw [RecordBucket.events, List.map_append, hrecords, summary_eq h, bucketLines]
  by_cases hclean : bucket.allDifferences r = []
  · rw [if_pos ((bucket.isClean_outcome r).2 hclean), if_pos hclean, List.map_singleton,
      line_bucketClean]
    rfl
  · rw [if_neg fun hm => hclean ((bucket.isClean_outcome r).1 hm), if_neg hclean]
    rfl

end Lines

/-! ## 3. The lines of a run -/

/-- The lines that a step logs. -/
def Logged.lines {ε α : Type} (step : Logged ε α) : List String := step.log.map Event.line

/-- The buckets before the first one that is not registered. -/
def knownBuckets (r : Registry) (buckets : List RecordBucket) : List RecordBucket :=
  buckets.takeWhile fun bucket => bucket.Registered r

/-- The buckets from the first one on that is not registered. -/
def strayBuckets (r : Registry) (buckets : List RecordBucket) : List RecordBucket :=
  buckets.dropWhile fun bucket => bucket.Registered r

section Run

variable {r : Registry} {buckets : List RecordBucket}

theorem log_cons (r : Registry) (bucket : RecordBucket) (rest : List RecordBucket) :
    (validate r (bucket :: rest)).log = .validating bucket.dataType bucket.ns ::
      match r.find bucket.dataType bucket.ns with
      | .error _ => []
      | .ok d => bucket.events d ++ (validate r rest).log := by
  rw [validate]
  cases r.find bucket.dataType bucket.ns with
  | error e => rfl
  | ok d =>
    simp only [Logged.after, Logged.andThen]
    cases (validate r rest).result with
    | error e => rfl
    | ok report =>
      show [_] ++ (bucket.events d ++ ((validate r rest).log ++ [])) = _
      rw [List.append_nil]
      rfl

/-- **A run logs the lines of all known buckets, and the announcement of the one it ends at.** -/
theorem lines_validate : (validate r buckets).lines
    = (knownBuckets r buckets).flatMap (bucketLines r)
      ++ ((strayBuckets r buckets).take 1).map announcementLine := by
  induction buckets with
  | nil => rfl
  | cons bucket rest ih =>
    rw [Logged.lines, log_cons, List.map_cons, line_validating, knownBuckets, strayBuckets,
      List.takeWhile_cons, List.dropWhile_cons]
    cases hfind : r.find bucket.dataType bucket.ns with
    | error e =>
      have hmissing : ¬ bucket.Registered r := (Registry.find_eq_error.1 hfind).1
      rw [if_neg (by simpa using hmissing), if_neg (by simpa using hmissing)]
      rfl
    | ok d =>
      have hthere : bucket.Registered r := ⟨d, Registry.find_eq_ok.1 hfind⟩
      rw [if_pos (by simpa using hthere), if_pos (by simpa using hthere), List.flatMap_cons,
        ← lines_events hfind]
      show announcementLine bucket :: (bucket.events d ++ (validate r rest).log).map Event.line = _
      rw [List.map_append]
      show _ :: (_ ++ (validate r rest).lines) = _
      rw [ih]
      simp [knownBuckets, strayBuckets]

/-- The known buckets give a report, and it is the report of the whole run if there are no others;
if there are, the run ends at the first of them. -/
theorem exists_report (r : Registry) (buckets : List RecordBucket) :
    ∃ report, (validate r (knownBuckets r buckets)).result = .ok report
      ∧ (validate r buckets).result = match strayBuckets r buckets with
        | [] => .ok report
        | stray :: _ => .error (r.lookupError stray.dataType stray.ns) := by
  have hknown : ∀ bucket ∈ knownBuckets r buckets, bucket.Registered r := fun bucket hm =>
    of_decide_eq_true (List.mem_takeWhile_imp (p := fun b : RecordBucket => b.Registered r) hm)
  have hsplit : knownBuckets r buckets ++ strayBuckets r buckets = buckets :=
    List.takeWhile_append_dropWhile
  have hrun := validate_ok_iff.2 ⟨hknown, rfl⟩
  refine ⟨_, hrun, ?_⟩
  cases hstray : strayBuckets r buckets with
  | nil =>
    rw [hstray, List.append_nil] at hsplit
    rw [hsplit] at hrun ⊢
    exact hrun
  | cons stray rest =>
    have hmissing : ¬ stray.Registered r := by
      have hhead := List.head?_dropWhile_not (fun bucket => decide (bucket.Registered r)) buckets
      rw [← strayBuckets, hstray] at hhead
      simpa using hhead
    exact (validate_error_iff buckets).2
      ⟨_, stray, rest, by rw [← hstray, hsplit], hknown, hmissing, rfl⟩

end Run

/-! ## 4. The lines of each kind -/

section Marks

variable {r : Registry} {bucket : RecordBucket} {mark : LineMark} {kind : DiscrepancyKind}
  {key : String} {found : List Discrepancy}

/-- Lines on discrepancies of one kind are a header and fields, or there are none. -/
theorem linesUnder_kindLines : linesUnder mark (kindLines kind key found)
    = (if mark = .header kind ∧ ∃ d ∈ found, d.kind = kind then [headerLine kind key] else [])
      ++ if mark = .field then (found.filter (·.kind = kind)).map fieldLine else [] := by
  rw [kindLines]
  cases hfound : found.filter (·.kind = kind) with
  | nil =>
    have hnone : ¬ ∃ d ∈ found, d.kind = kind := by simpa using hfound
    simp [hnone, linesUnder]
  | cons first others =>
    have hfirst : first ∈ found.filter (·.kind = kind) := hfound ▸ List.mem_cons_self
    have hsome : ∃ d ∈ found, d.kind = kind := ⟨first, by simpa using hfirst⟩
    show linesUnder mark ((LineMark.header kind).line (key ++ "])")
      :: (first :: others).map fun d => LineMark.field.line d.field) = _
    rw [linesUnder_cons, linesUnder_map]
    simp only [hsome, and_true]
    rfl

/-- Of what is reported of a record, the missing fields stand before the unnecessary ones. -/
theorem RecordBucket.differences_by_kind {record : Value} : bucket.differences r key record
    = (bucket.differences r key record).filter (·.kind = .missing)
      ++ (bucket.differences r key record).filter (·.kind = .unnecessary) := by
  simp [differences, List.filter_append, List.filter_map, Function.comp_def]

theorem fields_recordLines (hfound : found = found.filter (·.kind = .missing)
      ++ found.filter (·.kind = .unnecessary)) :
    linesUnder .field (recordLines key found) = found.map fieldLine := by
  rw [recordLines, linesUnder_append, linesUnder_kindLines, linesUnder_kindLines]
  simp only [reduceCtorEq, false_and, if_false, if_true, List.nil_append]
  rw [← List.map_append, ← hfound]

theorem headers_recordLines : linesUnder (.header kind) (recordLines key found)
    = if ∃ d ∈ found, d.kind = kind then [headerLine kind key] else [] := by
  rw [recordLines, linesUnder_append, linesUnder_kindLines, linesUnder_kindLines]
  cases kind <;> simp

/-- A record has no lines but headers and fields. -/
theorem linesUnder_recordLines (hfield : mark ≠ .field) (hheader : ∀ kind, mark ≠ .header kind) :
    linesUnder mark (recordLines key found) = [] := by
  rw [recordLines, linesUnder_append, linesUnder_kindLines, linesUnder_kindLines]
  simp [hfield, hheader]

theorem linesUnder_bucketLines : linesUnder mark (bucketLines r bucket)
    = (if mark = .announcement then [announcementLine bucket] else [])
      ++ (bucket.records.flatMap fun (key, record) =>
          linesUnder mark (recordLines key (bucket.differences r key record)))
      ++ if mark = .clean ∧ bucket.allDifferences r = [] then [cleanLine (bucket.outcome r)]
          else [] := by
  have hclean : linesUnder mark (if bucket.allDifferences r = [] then
      [cleanLine (bucket.outcome r)] else []) = if mark = .clean ∧ bucket.allDifferences r = [] then
      [cleanLine (bucket.outcome r)] else [] := by
    by_cases h : bucket.allDifferences r = []
    · rw [if_pos h, cleanLine, linesUnder_cons]
      simp [h, linesUnder]
    · simp [h, linesUnder]
  rw [bucketLines, announcementLine, List.cons_append, linesUnder_cons, linesUnder_append,
    linesUnder_flatMap, hclean, List.append_assoc]

theorem flatMap_ite_singleton {α β : Type} (p : α → Bool) (f : α → β) (l : List α) :
    (l.flatMap fun a => if p a then [f a] else []) = (l.filter p).map f := by
  induction l with
  | nil => rfl
  | cons a l ih =>
    rw [List.flatMap_cons, ih, List.filter_cons]
    split <;> rfl

theorem announcements_bucketLines :
    linesUnder .announcement (bucketLines r bucket) = [announcementLine bucket] := by
  rw [linesUnder_bucketLines]
  simp [linesUnder_recordLines]

theorem fields_bucketLines :
    linesUnder .field (bucketLines r bucket) = (bucket.allDifferences r).map fieldLine := by
  have hrecords : (bucket.records.flatMap fun (key, record) =>
      linesUnder .field (recordLines key (bucket.differences r key record)))
        = bucket.records.flatMap fun (key, record) =>
          (bucket.differences r key record).map fieldLine :=
    List.flatMap_congr fun (key, record) _ => fields_recordLines RecordBucket.differences_by_kind
  rw [linesUnder_bucketLines, hrecords, RecordBucket.allDifferences, List.map_flatMap]
  simp

theorem headers_bucketLines : linesUnder (.header kind) (bucketLines r bucket)
    = (bucket.records.filter fun (key, record) =>
        ∃ d ∈ bucket.differences r key record, d.kind = kind).map fun (key, _) =>
          headerLine kind key := by
  rw [linesUnder_bucketLines, ← flatMap_ite_singleton]
  simp [headers_recordLines]

theorem cleans_bucketLines : linesUnder .clean (bucketLines r bucket)
    = if (bucket.outcome r).isClean then [cleanLine (bucket.outcome r)] else [] := by
  rw [linesUnder_bucketLines]
  simp [linesUnder_recordLines, RecordBucket.isClean_outcome]

end Marks

/-! ## 5. Log and report -/

/-- The log of a run agrees with what it reports. The report is that of the known buckets: of a run
that fails, it says what was found until then. -/
structure Narrated (r : Registry) (buckets : List RecordBucket)
    (run : Logged LookupError ValidationReport) (report : ValidationReport) : Prop where
  known : (validate r (knownBuckets r buckets)).result = .ok report
  result : run.result = match strayBuckets r buckets with
    | [] => .ok report
    | stray :: _ => .error (r.lookupError stray.dataType stray.ns)
  /-- The lines of the known buckets, and the announcement of the one at which the run ends. -/
  lines : run.lines = (knownBuckets r buckets).flatMap (bucketLines r)
    ++ ((strayBuckets r buckets).take 1).map announcementLine
  announcements : linesUnder .announcement run.lines
    = (knownBuckets r buckets ++ (strayBuckets r buckets).take 1).map announcementLine
  fields : linesUnder .field run.lines = report.discrepancies.map fieldLine
  /-- One header for each record that has discrepancies of the kind. -/
  headers : ∀ kind, linesUnder (.header kind) run.lines
    = (knownBuckets r buckets).flatMap fun bucket =>
        (bucket.records.filter fun (key, record) =>
          ∃ d ∈ bucket.differences r key record, d.kind = kind).map fun (key, _) =>
            headerLine kind key
  cleans : linesUnder .clean run.lines = (report.buckets.filter (·.isClean)).map cleanLine

/-- Lines other than announcements are those of the known buckets. -/
theorem linesUnder_validate {r : Registry} {buckets : List RecordBucket} {mark : LineMark}
    (h : mark ≠ .announcement) : linesUnder mark (validate r buckets).lines
      = (knownBuckets r buckets).flatMap fun bucket => linesUnder mark (bucketLines r bucket) := by
  have hstray : linesUnder mark (((strayBuckets r buckets).take 1).map announcementLine) = [] :=
    linesUnder_map.trans (if_neg h)
  rw [lines_validate, linesUnder_append, linesUnder_flatMap, hstray, List.append_nil]

/-- **The log of a validation agrees with its report, line by line.** Every bucket that is looked at
is announced; the fields of all discrepancies follow in the order of the report, each record's under
one header for those that it lacks and one for those in excess; and behind the records of a bucket
stands that it is clean, exactly if nothing is reported of it. -/
theorem narrated_validate (r : Registry) (buckets : List RecordBucket) :
    ∃ report, Narrated r buckets (validate r buckets) report := by
  obtain ⟨report, hknown, hresult⟩ := exists_report r buckets
  have hreport := (validate_ok_iff.1 hknown).2
  refine ⟨report, hknown, hresult, lines_validate, ?_, ?_, fun kind => ?_, ?_⟩
  · have hstray : linesUnder .announcement (((strayBuckets r buckets).take 1).map announcementLine)
        = ((strayBuckets r buckets).take 1).map announcementLine :=
      linesUnder_map.trans (if_pos rfl)
    rw [lines_validate, linesUnder_append, linesUnder_flatMap, hstray, List.map_append]
    simp only [announcements_bucketLines]
    rw [← List.map_eq_flatMap]
  · rw [linesUnder_validate (by decide), hreport, List.map_flatMap]
    simp only [fields_bucketLines]
  · rw [linesUnder_validate (by simp)]
    simp only [headers_bucketLines]
  · rw [linesUnder_validate (by decide), hreport]
    simp only [cleans_bucketLines]
    rw [← flatMap_ite_singleton, List.flatMap_map]

example : (validate entries entryBuckets).lines =
    ["INFO validate... : Entry (kanji)",
     "ERROR The submitted data contains missing fields. (key: [yama])", "ERROR > character",
     "ERROR The submitted data contains missing fields. (key: [kawa])", "ERROR > id",
     "ERROR > character",
     "INFO validate... : Entry (word)",
     "ERROR The submitted data contains unnecessary fields. (key: [yama])", "ERROR > note"] := by
  decide +kernel

end MasterSchema
