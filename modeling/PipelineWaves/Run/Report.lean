import PipelineWaves.Json.Source
import PipelineWaves.Outcome
import PipelineWaves.Run.Identifier
import PipelineWaves.Time.Instant

/-!
# Run reports

What a run leaves behind: one result per step in the order of the plan, and a
status derived from the results. A run fails exactly when one of its steps
failed. Reports are written and read as JSON.
-/

set_option autoImplicit false

namespace PipelineWaves

structure StepResult where
  stepId : String
  outcome : StepOutcome
  stdout : String
  stderr : String
  duration : Duration
  /-- When the step was started; a step that never ran has no start. -/
  startedAt : Option Instant
  /-- The exit code of the last process of the step. -/
  exitCode : Option Int
  /-- Why the step failed or was skipped. -/
  detail : Option String
deriving DecidableEq, Repr

namespace StepResult

/-- The result of a step that never ran. -/
def skipped (stepId reason : String) : StepResult :=
  { stepId
    outcome := .skipped
    stdout := ""
    stderr := ""
    duration := .zero
    startedAt := none
    exitCode := none
    detail := some reason }

/-- The result of a step that was started and then lost. -/
def aborted (stepId : String) : StepResult :=
  { skipped stepId "step task aborted" with outcome := .failed }

def isFailed (result : StepResult) : Bool := result.outcome = .failed

end StepResult

structure RunReport where
  identifier : RunIdentifier
  pipelineName : String
  status : RunStatus
  startedAt : Instant
  completedAt : Option Instant
  /-- Results in the order of the plan. -/
  results : List StepResult
deriving DecidableEq, Repr

namespace RunReport

def start (identifier : RunIdentifier) (pipelineName : String) (now : Instant) : RunReport :=
  ⟨identifier, pipelineName, .pending, now, none, []⟩

def result? (report : RunReport) (id : String) : Option StepResult :=
  report.results.find? fun result => result.stepId = id

def isSuccess (report : RunReport) : Bool := !report.results.any StepResult.isFailed

def exitCode (report : RunReport) : Nat := if report.isSuccess then 0 else 1

def idsWith (report : RunReport) (outcome : StepOutcome) : List String :=
  (report.results.filter fun result => result.outcome = outcome).map StepResult.stepId

def failedSteps (report : RunReport) : List String := report.idsWith .failed
def skippedSteps (report : RunReport) : List String := report.idsWith .skipped
def succeededSteps (report : RunReport) : List String := report.idsWith .success

/-- The status of a finished run. -/
def finalStatus (results : List StepResult) (interrupted : Bool) : RunStatus :=
  if results.any StepResult.isFailed then .failed
  else if interrupted then .cancelled
  else .completed

def finish (report : RunReport) (interrupted : Bool) (now : Instant) : RunReport :=
  { report with
    status := finalStatus report.results interrupted
    completedAt := some now }

def elapsed (report : RunReport) : Option Duration :=
  report.completedAt.bind report.startedAt.durationTo

end RunReport

def Duration.toJson (duration : Duration) : Json :=
  .object [("secs", .natural duration.seconds), ("nanos", .natural duration.nanoseconds)]

namespace StepResult

def toJson (result : StepResult) : Json :=
  .object
    [("step_id", .text result.stepId), ("outcome", .text result.outcome.reportName),
      ("stdout", .text result.stdout), ("stderr", .text result.stderr),
      ("duration", result.duration.toJson),
      ("started_at", .ofOption (result.startedAt.map Instant.text)),
      ("exit_code",
        match result.exitCode with
        | some code => .number (.integer code)
        | none => .null),
      ("detail", .ofOption result.detail)]

end StepResult

namespace RunReport

def toJson (report : RunReport) : Json :=
  .object
    [("execution_id", .text report.identifier.text), ("pipeline_name", .text report.pipelineName),
      ("status", .text report.status.reportName), ("started_at", .text report.startedAt.text),
      ("completed_at", .ofOption (report.completedAt.map Instant.text)),
      ("results", .list (report.results.map StepResult.toJson))]

end RunReport

def StepOutcome.read {Source : Type} [Readable Source] (source : Source) :
    Except ReadError StepOutcome :=
  Readable.oneOf StepOutcome.all StepOutcome.reportName source

def RunStatus.read {Source : Type} [Readable Source] (source : Source) :
    Except ReadError RunStatus :=
  Readable.oneOf RunStatus.all RunStatus.reportName source

/-- Reads a text and takes its meaning. -/
def JsonDocument.readMeaning {Value : Type} (expected : String) (meaning : String → Option Value)
    (document : JsonDocument) : Except ReadError Value := do
  match meaning (← document.readText expected) with
  | some value => .ok value
  | none => .error (.of (.stated "unusable text"))

def Instant.ofDocument : JsonDocument → Except ReadError Instant :=
  JsonDocument.readMeaning "an RFC 3339 formatted date and time string" Instant.read

def RunIdentifier.ofDocument : JsonDocument → Except ReadError RunIdentifier :=
  JsonDocument.readMeaning "a formatted UUID string" RunIdentifier.read

structure DurationDraft where
  seconds : Option Nat
  nanoseconds : Option Nat

namespace Duration

def secondsLimit : Nat := Nat.pow 2 64

def schema : Schema JsonDocument DurationDraft Duration :=
  { title := "struct Duration"
    fields := [.required "secs", .required "nanos"]
    skipsUnknown := false
    start := ⟨none, none⟩
    assign := fun draft field source =>
      match field with
      | "secs" => do
          let value ← source.readInteger 0 (secondsLimit - 1) "u64"
          .ok { draft with seconds := some value.toNat }
      | _ => do
          let value ← source.readInteger 0 (Int.pow 2 32 - 1) "u32"
          .ok { draft with nanoseconds := some value.toNat }
    build := fun draft => do
      let seconds ← ShapeError.required "secs" draft.seconds
      let nanoseconds ← ShapeError.required "nanos" draft.nanoseconds
      let duration := Duration.of seconds nanoseconds
      if duration.seconds < secondsLimit then .ok duration
      else .error (.stated "overflow deserializing Duration") }

end Duration

structure StepResultDraft where
  stepId : Option String
  outcome : Option StepOutcome
  stdout : Option String
  stderr : Option String
  duration : Option Duration
  startedAt : Option Instant
  exitCode : Option Int
  detail : Option String

namespace StepResult

def assign (draft : StepResultDraft) (field : String) (source : JsonDocument) :
    Except ReadError StepResultDraft :=
  match field with
  | "step_id" => do .ok { draft with stepId := some (← Readable.string source) }
  | "outcome" => do .ok { draft with outcome := some (← StepOutcome.read source) }
  | "stdout" => do .ok { draft with stdout := some (← Readable.string source) }
  | "stderr" => do .ok { draft with stderr := some (← Readable.string source) }
  | "duration" => do .ok { draft with duration := some (← Duration.schema.read source) }
  | "started_at" => do .ok { draft with startedAt := ← Readable.option Instant.ofDocument source }
  | "exit_code" => do
      let code ← Readable.option (JsonDocument.readInteger (-Int.pow 2 31) (Int.pow 2 31 - 1) "i32") source
      .ok { draft with exitCode := code }
  | _ => do .ok { draft with detail := ← Readable.option Readable.string source }

def schema : Schema JsonDocument StepResultDraft StepResult :=
  { title := "struct StepResult"
    fields :=
      [.required "step_id", .required "outcome", .required "stdout", .required "stderr",
        .required "duration", .required "started_at", .required "exit_code", .required "detail"]
    skipsUnknown := true
    start := ⟨none, none, none, none, none, none, none, none⟩
    assign
    build := fun draft => do
      let stepId ← ShapeError.required "step_id" draft.stepId
      let outcome ← ShapeError.required "outcome" draft.outcome
      let stdout ← ShapeError.required "stdout" draft.stdout
      let stderr ← ShapeError.required "stderr" draft.stderr
      let duration ← ShapeError.required "duration" draft.duration
      .ok ⟨stepId, outcome, stdout, stderr, duration, draft.startedAt, draft.exitCode,
        draft.detail⟩ }

end StepResult

structure RunReportDraft where
  identifier : Option RunIdentifier
  pipelineName : Option String
  status : Option RunStatus
  startedAt : Option Instant
  completedAt : Option Instant
  results : Option (List StepResult)

namespace RunReport

def assign (draft : RunReportDraft) (field : String) (source : JsonDocument) :
    Except ReadError RunReportDraft :=
  match field with
  | "execution_id" => do .ok { draft with identifier := some (← RunIdentifier.ofDocument source) }
  | "pipeline_name" => do .ok { draft with pipelineName := some (← Readable.string source) }
  | "status" => do .ok { draft with status := some (← RunStatus.read source) }
  | "started_at" => do .ok { draft with startedAt := some (← Instant.ofDocument source) }
  | "completed_at" => do
      .ok { draft with completedAt := ← Readable.option Instant.ofDocument source }
  | _ => do
      .ok { draft with results := some (← Readable.listOf StepResult.schema.read source) }

def schema : Schema JsonDocument RunReportDraft RunReport :=
  { title := "struct RunReport"
    fields :=
      [.required "execution_id", .required "pipeline_name", .required "status",
        .required "started_at", .required "completed_at", .required "results"]
    skipsUnknown := true
    start := ⟨none, none, none, none, none, none⟩
    assign
    build := fun draft => do
      let identifier ← ShapeError.required "execution_id" draft.identifier
      let pipelineName ← ShapeError.required "pipeline_name" draft.pipelineName
      let status ← ShapeError.required "status" draft.status
      let startedAt ← ShapeError.required "started_at" draft.startedAt
      let results ← ShapeError.required "results" draft.results
      .ok ⟨identifier, pipelineName, status, startedAt, draft.completedAt, results⟩ }

def read (document : JsonDocument) : Except ReadError RunReport := schema.read document

end RunReport

end PipelineWaves
