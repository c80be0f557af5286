import PipelineWaves.Graph.Basic
import PipelineWaves.Run.Event
import PipelineWaves.Run.Report
import PipelineWaves.Terminal.Style
import PipelineWaves.Text.Lines

/-!
# What is shown on a terminal

Plans, events and reports as lines of text. Styles decorate, except that the
column of outcomes in a report is filled up to its width with the characters of
the escape sequences counted. Output of a failed step is shown indented and cut
after twenty lines.
-/

set_option autoImplicit false

namespace PipelineWaves

namespace Terminal

def status (terminal : Terminal) : RunStatus → String
  | .pending => terminal.styled .dim "PENDING"
  | .running => terminal.styled .yellow "RUNNING"
  | .completed => terminal.styled .green "COMPLETED"
  | .failed => terminal.styled .red "FAILED"
  | .cancelled => terminal.styled .yellow "CANCELLED"

def outcome (terminal : Terminal) : StepOutcome → String
  | .success => terminal.styled .green "SUCCESS"
  | .failed => terminal.styled .red "FAILED"
  | .skipped => terminal.styled .dim "SKIPPED"

def indent : String := "    "

/-- Output of a step, indented, with at most the given number of lines. -/
def output (terminal : Terminal) (text : String) (mostLines : Nat) : String :=
  let lines := Text.lines text
  let separator := "\n" ++ indent
  if lines.length ≤ mostLines then indent ++ separator.intercalate lines
  else
    indent ++ separator.intercalate (lines.take mostLines) ++ separator
      ++ terminal.styled .dim "[truncated]" ++ s!"... ({lines.length - mostLines} more lines)"

def shownLines : Nat := 20

def errorOutput? (terminal : Terminal) (stderr : String) : Option String :=
  if Text.isBlankText stderr then none
  else some (terminal.output (Text.trimTrailingBlank stderr) shownLines)

def listed (steps : List String) : String := ", ".intercalate steps

/-- The line for an event; some events show nothing. -/
def event? (terminal : Terminal) : RunEvent → Option String
  | .runStarted identifier pipelineName steps waves =>
      some (terminal.symbol .rocket ++ " Starting pipeline "
        ++ terminal.styled .bold pipelineName ++ " ("
        ++ terminal.styled .dim identifier.short ++ s!"): {steps} steps in {waves} waves")
  | .waveStarted index steps =>
      some (terminal.symbol .info ++ s!" Wave {index + 1}: "
        ++ terminal.styled .dim (listed steps))
  | .stepStarted step => some (terminal.symbol .spinner ++ " " ++ terminal.styled .cyan step)
  | .stepSkipped step reason =>
      some (terminal.symbol .skip ++ " " ++ terminal.styled .dim step ++ s!" ({reason})")
  | .stepSucceeded step duration =>
      some (terminal.symbol .check ++ " " ++ terminal.styled .green step ++ " "
        ++ terminal.styled .dim duration.text)
  | .stepFailed step error stderr =>
      let line := terminal.symbol .cross ++ " " ++ terminal.styled .red step ++ ": "
        ++ terminal.styled .dim error
      match terminal.errorOutput? stderr with
      | some shown => some (line ++ "\n" ++ shown)
      | none => some line
  | .waveCompleted _ => none
  | .runInterrupted remaining =>
      some (terminal.symbol .warning ++ s!" Interrupted; skipping {remaining} remaining step(s)")
  | .runCompleted _ status =>
      some (terminal.symbol .info ++ " Pipeline " ++ terminal.status status)

def result (terminal : Terminal) (result : StepResult) : List String :=
  let line := "  " ++ Text.padTo 24 result.stepId ++ " "
    ++ Text.padTo 8 (terminal.outcome result.outcome) ++ " "
    ++ terminal.styled .dim result.duration.text
  let line :=
    match result.detail with
    | some detail => line ++ "  " ++ terminal.styled .dim detail
    | none => line
  match result.isFailed, terminal.errorOutput? result.stderr with
  | true, some shown => [line, shown]
  | _, _ => [line]

/-- Whether a step was skipped because another one failed. -/
def isSkippedByFailure (result : StepResult) : Bool :=
  result.outcome = .skipped
    && (result.detail.getD "").toList.take 10 = "dependency".toList

def report (terminal : Terminal) (report : RunReport) : String :=
  let count (style : Style) (steps : List String) : String :=
    terminal.styled style (toString steps.length)
  let totals := "  " ++ count .green report.succeededSteps ++ " succeeded, "
    ++ count .red report.failedSteps ++ " failed, "
    ++ count .dim report.skippedSteps ++ " skipped"
  let failed := report.failedSteps
  let skipped := (report.results.filter isSkippedByFailure).map StepResult.stepId
  let failures :=
    if failed.isEmpty then []
    else
      (terminal.symbol .cross ++ " Failed: " ++ terminal.styled .red (listed failed)) ::
        if skipped.isEmpty then []
        else
          [terminal.symbol .skip ++ " Skipped because of failures: "
            ++ terminal.styled .dim (listed skipped)]
  "\n".intercalate (report.results.flatMap terminal.result ++ totals :: failures)

def plan (terminal : Terminal) (graph : Graph) : String :=
  let line (entry : List String × Nat) : String :=
    s!"  Wave {entry.2 + 1}: " ++ terminal.styled .cyan (listed entry.1)
  "\n".intercalate (graph.waveIds.zipIdx.map line)

end Terminal

end PipelineWaves
