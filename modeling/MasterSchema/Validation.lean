import MasterSchema.Log
import MasterSchema.Registry.Basic

/-!
# Records against their declaration

A record is compared with its data type in both directions: declared fields it lacks, and fields it
has that are not declared. Nothing stops early; a run gives all discrepancies of all buckets, in
order. Only a bucket whose data type is unknown ends the run.
-/

namespace MasterSchema

/-! ## 1. Buckets, discrepancies, reports -/

/-- The records of one data type, by record key, in file order. -/
structure RecordBucket where
  ns : Namespace
  dataType : String
  records : Table

inductive DiscrepancyKind where
  /-- Declared, but not in the record. -/
  | missing
  /-- In the record, but not declared. -/
  | unnecessary
  deriving DecidableEq, Repr

def DiscrepancyKind.message : DiscrepancyKind → String
  | .missing => "missing"
  | .unnecessary => "unnecessary"

/-- One field in which one record and its declaration differ. -/
structure Discrepancy where
  ns : Namespace
  dataType : String
  record : String
  field : String
  kind : DiscrepancyKind
  deriving DecidableEq, Repr

def Discrepancy.message (d : Discrepancy) : String :=
  d.dataType ++ "::" ++ d.record ++ " (" ++ d.ns.toString ++ "): " ++ d.kind.message ++ " field '"
    ++ d.field ++ "'"

/-- What came out for one bucket. -/
structure BucketSummary where
  ns : Namespace
  dataType : String
  recordCount : Nat
  /-- Keys of the records with a discrepancy. -/
  offending : List String
  deriving DecidableEq, Repr

def BucketSummary.isClean (summary : BucketSummary) : Bool :=
  summary.offending.isEmpty

/-- What came out of a run. -/
structure ValidationReport where
  buckets : List BucketSummary := []
  discrepancies : List Discrepancy := []
  deriving DecidableEq, Repr

namespace ValidationReport

def isClean (report : ValidationReport) : Bool :=
  report.discrepancies.isEmpty

def recordCount (report : ValidationReport) : Nat :=
  (report.buckets.map (·.recordCount)).foldr (· + ·) 0

def offendingCount (report : ValidationReport) : Nat :=
  (report.buckets.map (·.offending.length)).foldr (· + ·) 0

/-- The discrepancies of one record. -/
def forRecord (report : ValidationReport) (ns : Namespace) (dataType record : String) :
    List Discrepancy :=
  report.discrepancies.filter fun d => d.ns == ns && d.dataType == dataType && d.record == record

end ValidationReport

/-! ## 2. One record -/

namespace DataType

/-- The fields of a record; what is not a table has none. -/
def recordFields (record : Value) : Table :=
  record.asTable?.getD []

/-- Declared fields that are not in the record, in declaration order. -/
def missingFields (d : DataType) (record : Value) : List String :=
  (d.fields.map (·.name)).filter fun name => !(recordFields record).contains name

/-- Fields of the record that are not declared, in record order. -/
def unnecessaryFields (d : DataType) (record : Value) : List String :=
  (recordFields record).keys.filter fun name => (d.field? name).isNone

/-- What is wrong with a record: missing fields first, then unnecessary ones. -/
def checkRecord (d : DataType) (key : String) (record : Value) : List Discrepancy :=
  (d.missingFields record).map (fun field => ⟨d.ns, d.name, key, field, .missing⟩)
    ++ (d.unnecessaryFields record).map (fun field => ⟨d.ns, d.name, key, field, .unnecessary⟩)

/-- A header and the fields below it; nothing if there are none. -/
def fieldEvents (header : Event) (fields : List String) : List Event :=
  if fields.isEmpty then [] else header :: fields.map .offendingField

/-- What checking a record logs. -/
def recordEvents (d : DataType) (key : String) (record : Value) : List Event :=
  fieldEvents (.fieldsMissing key) (d.missingFields record)
    ++ fieldEvents (.fieldsUnnecessary key) (d.unnecessaryFields record)

end DataType

/-! ## 3. Buckets -/

namespace RecordBucket

/-- All discrepancies of a bucket's records, in record order. -/
def discrepancies (bucket : RecordBucket) (d : DataType) : List Discrepancy :=
  bucket.records.flatMap fun (key, record) => d.checkRecord key record

def summary (bucket : RecordBucket) (d : DataType) : BucketSummary :=
  { ns := bucket.ns
    dataType := bucket.dataType
    recordCount := bucket.records.length
    offending :=
      (bucket.records.filter fun (key, record) => !(d.checkRecord key record).isEmpty).map (·.1) }

/-- What checking a bucket logs, its data type being known. -/
def events (bucket : RecordBucket) (d : DataType) : List Event :=
  bucket.records.flatMap (fun (key, record) => d.recordEvents key record)
    ++ if (bucket.summary d).isClean then
         [.bucketClean bucket.records.length bucket.dataType bucket.ns]
       else []

end RecordBucket

/-- Checks every record of every bucket. A bucket of an unknown data type ends the run. -/
def validate (r : Registry) : List RecordBucket → Logged LookupError ValidationReport
  | [] => .ok {}
  | bucket :: rest =>
    .after [.validating bucket.dataType bucket.ns] <|
      match r.find bucket.dataType bucket.ns with
      | .error e => .fail e
      | .ok d =>
        .after (bucket.events d) <|
          (validate r rest).andThen fun report =>
            .ok ⟨bucket.summary d :: report.buckets,
                 bucket.discrepancies d ++ report.discrepancies⟩

end MasterSchema
