import MasterSchema.CommandLine.Arguments
import MasterSchema.Config.Reading
import MasterSchema.Project.Run
import MasterSchema.Text

/-!
# Running a command

A command ends with an exit code: 0 if it did what it was asked for, 1 if records differ from their
schema or no id domain is found, 2 if it failed. What it prints goes to the standard output; the
reason of a failure goes to the standard error, as one line of all causes.
-/

namespace MasterSchema.CommandLine

/-- What a command leaves. -/
structure Ending where
  code : Nat
  /-- The lines it prints. -/
  output : List String
  /-- The line that says why it failed. -/
  failure : Option String
  /-- The events it logs, as far as they are wanted. -/
  log : List Event
  tree : FileTree

/-! ## 1. The log -/

/-- The events a command line wants: errors if it is quiet, debugging ones if it is verbose, and
    else all up to those that inform. -/
def Invocation.level (invocation : Invocation) : Level :=
  if invocation.quiet then .error
  else if 0 < invocation.verbose then .debug
  else .info

def wanted (level : Level) (log : List Event) : List Event :=
  log.filter fun e => decide (e.level.rank ≤ level.rank)

/-! ## 2. Failures -/

/-- The line of a failure: what was being done, and all causes. -/
def failureLine (doing : String) (causes : List String) : String :=
  Text.joined ": " (doing :: causes)

/-- The ending of a command that failed. -/
def failed (t : FileTree) (log : List Event) (doing : String) (causes : List String) : Ending :=
  ⟨2, [], some (failureLine doing causes), log, t⟩

/-! ## 3. What is printed -/

def generateLine (summary : Project.GenerateSummary) : String :=
  "generated " ++ toString summary.files.length ++ " files for " ++ toString summary.dataTypes
    ++ " data types"

def bucketLine (bucket : BucketSummary) : String :=
  (if bucket.isClean then "ok" else "FAILED") ++ ": " ++ bucket.dataType ++ " ("
    ++ bucket.ns.toString ++ ") " ++ toString bucket.recordCount ++ " records, "
    ++ toString bucket.offending.length ++ " offending"

def discrepancyLine (d : Discrepancy) : String := "  " ++ d.message

/-- A line for every bucket, then a line for every discrepancy. -/
def reportLines (report : ValidationReport) : List String :=
  report.buckets.map bucketLine ++ report.discrepancies.map discrepancyLine

/-! ## 4. The commands -/

def runGenerate (config : Config) (fs : FileSystem) : Ending :=
  match Project.generate config fs with
  | ⟨.error e, t, log⟩ => failed t log "generate failed" e.chain
  | ⟨.ok summary, t, log⟩ => ⟨0, [generateLine summary], none, log, t⟩

def runValidate (config : Config) (fs : FileSystem) : Ending :=
  match Project.validate config fs with
  | ⟨.error e, log⟩ => failed fs.tree log "validate failed" e.chain
  | ⟨.ok report, log⟩ =>
    ⟨if report.isClean then 0 else 1, reportLines report, none, log, fs.tree⟩

def runQuery (config : Config) (query : String) (fs : FileSystem) : Ending :=
  let file := config.idRegistryPath
  match DataFile.idRegistry fs file with
  | ⟨.error e, log⟩ => failed fs.tree log ("loading id registry " ++ file.text) e.chain
  | ⟨.ok ids, log⟩ =>
    let answer := (IdQuery.ofText query).answer ids
    ⟨if answer.found then 0 else 1, [answer.line], none, log, fs.tree⟩

def runCommand (config : Config) (fs : FileSystem) : Command → Ending
  | .generate => runGenerate config fs
  | .validate => runValidate config fs
  | .id query => runQuery config query fs

/-- Loads the configuration and runs the command. -/
def run (invocation : Invocation) (fs : FileSystem) : Ending :=
  match Config.load fs invocation.config with
  | .error e => failed fs.tree [] ("loading config " ++ invocation.config.text) e.chain
  | .ok config =>
    let ending := runCommand config fs invocation.command
    { ending with log := wanted invocation.level ending.log }

end MasterSchema.CommandLine
