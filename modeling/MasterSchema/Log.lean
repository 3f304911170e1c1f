import MasterSchema.SchemaError

/-!
# The log of a run

A run leaves a list of events. An event says what happened; its level and its line are functions
of it. `Logged` is a result together with the events on the way to it: a step that fails ends the
run and keeps what was logged before it.
-/

namespace MasterSchema

/-! ## 1. Events -/

/-- How urgent an event is. -/
inductive Level where
  | error
  | warn
  | info
  | debug
  deriving DecidableEq, Repr

def Level.name : Level → String
  | .error => "ERROR"
  | .warn => "WARN"
  | .info => "INFO"
  | .debug => "DEBUG"

/-- The less urgent, the higher. -/
def Level.rank : Level → Nat
  | .error => 0
  | .warn => 1
  | .info => 2
  | .debug => 3

inductive Event where
  /-- A data type entered the registry. -/
  | registered (dataType : String) (ns : Namespace) (fields : Nat)
  | schemaRejected (cause : SchemaError)
  | namespaceLoaded (ns : Namespace) (dataTypes : Nat)
  | idRegistryLoaded (file : Path) (domains : Nat)
  | idRegistryMissing (file : Path)
  /-- An identifier field's domain is not in the id registry. -/
  | unknownDomain (dataType field domain : String)
  | fileSkipped (file : Path)
  | recordsLoaded (file : Path) (records : Nat)
  | outputCleared (dir : Path)
  | fileCreated (path : Path)
  | generated (files dataTypes : Nat) (root : Path)
  /-- The records of a bucket are about to be checked. -/
  | validating (dataType : String) (ns : Namespace)
  /-- A record lacks fields; their names follow as `offendingField`. -/
  | fieldsMissing (record : String)
  /-- A record has undeclared fields; their names follow as `offendingField`. -/
  | fieldsUnnecessary (record : String)
  | offendingField (field : String)
  | bucketClean (records : Nat) (dataType : String) (ns : Namespace)
  | validationPassed (records buckets : Nat)
  | validationFailed (discrepancies records : Nat)
  deriving DecidableEq, Repr

namespace Event

def level : Event → Level
  | .schemaRejected _ | .fieldsMissing _ | .fieldsUnnecessary _ | .offendingField _ => .error
  | .idRegistryMissing _ | .unknownDomain .. | .validationFailed .. => .warn
  | .fileCreated _ | .generated .. | .validating .. | .bucketClean .. | .validationPassed .. =>
      .info
  | .registered .. | .namespaceLoaded .. | .idRegistryLoaded .. | .fileSkipped _
  | .recordsLoaded .. | .outputCleared _ => .debug

def text : Event → String
  | .registered dataType ns fields =>
      "registered data type data_type=" ++ dataType ++ " namespace=" ++ ns.toString
        ++ " fields=" ++ toString fields
  | .schemaRejected cause => "schema rejected: " ++ cause.message
  | .namespaceLoaded ns dataTypes =>
      "namespace loaded namespace=" ++ ns.toString ++ " data_types=" ++ toString dataTypes
  | .idRegistryLoaded file domains =>
      "loaded id registry file=" ++ file.text ++ " domains=" ++ toString domains
  | .idRegistryMissing file =>
      "id registry not found, skipping identifier domain check file=" ++ file.text
  | .unknownDomain dataType field domain =>
      dataType ++ "." ++ field ++ ": id domain '" ++ domain ++ "' is not in the id registry"
  | .fileSkipped file => "skipping non-data file file=" ++ file.text
  | .recordsLoaded file records =>
      "loaded records file=" ++ file.text ++ " records=" ++ toString records
  | .outputCleared dir => "cleared output root dir=" ++ dir.text
  | .fileCreated path => "create file: " ++ path.text
  | .generated files dataTypes root =>
      "generated " ++ toString files ++ " files for " ++ toString dataTypes ++ " data types in "
        ++ root.text
  | .validating dataType ns => "validate... : " ++ dataType ++ " (" ++ ns.toString ++ ")"
  | .fieldsMissing record =>
      "The submitted data contains missing fields. (key: [" ++ record ++ "])"
  | .fieldsUnnecessary record =>
      "The submitted data contains unnecessary fields. (key: [" ++ record ++ "])"
  | .offendingField field => "> " ++ field
  | .bucketClean records dataType ns =>
      "All data is validated : " ++ toString records ++ " records in " ++ dataType ++ " ("
        ++ ns.toString ++ ")"
  | .validationPassed records buckets =>
      "validation passed: " ++ toString records ++ " records in " ++ toString buckets ++ " buckets"
  | .validationFailed discrepancies records =>
      "validation found " ++ toString discrepancies ++ " discrepancies in " ++ toString records
        ++ " records"

/-- The line an event is logged as. -/
def line (e : Event) : String :=
  e.level.name ++ " " ++ e.text

end Event

/-! ## 2. Results with their log -/

instance decidableEqResult {ε α : Type} [DecidableEq ε] [DecidableEq α] :
    DecidableEq (Except ε α)
  | .error a, .error b => decidable_of_iff (a = b) ⟨congrArg _, Except.error.inj⟩
  | .ok a, .ok b => decidable_of_iff (a = b) ⟨congrArg _, Except.ok.inj⟩
  | .error _, .ok _ => .isFalse nofun
  | .ok _, .error _ => .isFalse nofun

/-- A result, and the events logged until it was there. -/
structure Logged (ε α : Type) where
  result : Except ε α
  log : List Event

namespace Logged

variable {ε δ α β : Type}

def ok (a : α) : Logged ε α := ⟨.ok a, []⟩

def fail (e : ε) : Logged ε α := ⟨.error e, []⟩

/-- A result with nothing logged. -/
def ofExcept (result : Except ε α) : Logged ε α := ⟨result, []⟩

/-- Logs events. -/
def emit (events : List Event) : Logged ε Unit := ⟨.ok (), events⟩

/-- Goes on with a result; a failure stands, and so does what was logged. -/
def andThen (step : Logged ε α) (next : α → Logged ε β) : Logged ε β :=
  match step.result with
  | .error e => ⟨.error e, step.log⟩
  | .ok a => ⟨(next a).result, step.log ++ (next a).log⟩

instance : Monad (Logged ε) where
  pure := ok
  bind := andThen

/-- Events before a step. -/
def after (events : List Event) (step : Logged ε α) : Logged ε α :=
  ⟨step.result, events ++ step.log⟩

/-- The same step with its error seen as another. -/
def mapError (f : ε → δ) (step : Logged ε α) : Logged δ α :=
  ⟨step.result.mapError f, step.log⟩

theorem andThen_result (step : Logged ε α) (next : α → Logged ε β) :
    (step.andThen next).result = step.result >>= fun a => (next a).result := by
  unfold andThen
  cases step.result <;> rfl

/-- Two steps succeed together. -/
theorem andThen_eq_ok {step : Logged ε α} {next : α → Logged ε β} {b : β} :
    (step.andThen next).result = .ok b ↔
      ∃ a, step.result = .ok a ∧ (next a).result = .ok b := by
  unfold andThen
  cases hs : step.result with
  | error e => exact ⟨(fun h => nomatch h), fun ⟨_, h, _⟩ => nomatch h⟩
  | ok a => exact ⟨fun h => ⟨a, rfl, h⟩, fun ⟨_, ha, h⟩ => Except.ok.inj ha ▸ h⟩

/-- Of two steps one fails, the second only after the first has succeeded. -/
theorem andThen_eq_error {step : Logged ε α} {next : α → Logged ε β} {e : ε} :
    (step.andThen next).result = .error e ↔
      step.result = .error e ∨ ∃ a, step.result = .ok a ∧ (next a).result = .error e := by
  unfold andThen
  cases hs : step.result with
  | error e' =>
    refine ⟨fun h => Or.inl (congrArg _ (Except.error.inj h)), ?_⟩
    intro hor
    rcases hor with h | ⟨_, h, _⟩
    · exact congrArg _ (Except.error.inj h)
    · cases h
  | ok a =>
    refine ⟨fun h => Or.inr ⟨a, rfl, h⟩, ?_⟩
    intro hor
    rcases hor with h | ⟨_, ha, h⟩
    · cases h
    · exact Except.ok.inj ha ▸ h

theorem mapError_eq_ok {f : ε → δ} {step : Logged ε α} {a : α} :
    (step.mapError f).result = .ok a ↔ step.result = .ok a := by
  unfold mapError
  cases step.result with
  | error e => exact ⟨(fun h => nomatch h), fun h => nomatch h⟩
  | ok b => exact ⟨fun h => congrArg _ (Except.ok.inj h), fun h => congrArg _ (Except.ok.inj h)⟩

theorem mapError_eq_error {f : ε → δ} {step : Logged ε α} {e : δ} :
    (step.mapError f).result = .error e ↔ ∃ cause, step.result = .error cause ∧ e = f cause := by
  unfold mapError
  cases step.result with
  | error cause =>
    refine ⟨fun h => ⟨cause, rfl, (Except.error.inj h).symm⟩, ?_⟩
    intro hsome
    obtain ⟨_, hc, rfl⟩ := hsome
    rw [Except.error.inj hc]
    rfl
  | ok b => exact ⟨(fun h => nomatch h), fun ⟨_, h, _⟩ => nomatch h⟩

end Logged

end MasterSchema
