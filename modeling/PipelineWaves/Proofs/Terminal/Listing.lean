import PipelineWaves.Terminal.Display

/-!
# What a report lists

The shown report is the lines of its steps, a line of totals and, when a step failed, the
failed steps and those skipped because of them.
-/

set_option autoImplicit false

namespace PipelineWaves

namespace Terminal

def listedSkips (report : RunReport) : List String :=
  if report.failedSteps.isEmpty then []
  else (report.results.filter isSkippedByFailure).map StepResult.stepId

def totals (terminal : Terminal) (report : RunReport) : String :=
  let count (style : Style) (steps : List String) : String :=
    terminal.styled style (toString steps.length)
  "  " ++ count .green report.succeededSteps ++ " succeeded, "
    ++ count .red report.failedSteps ++ " failed, "
    ++ count .dim report.skippedSteps ++ " skipped"

def failureLines (terminal : Terminal) (failed skipped : List String) : List String :=
  (if failed.isEmpty then []
    else [terminal.symbol .cross ++ " Failed: " ++ terminal.styled .red (listed failed)])
  ++ if skipped.isEmpty then []
    else
      [terminal.symbol .skip ++ " Skipped because of failures: "
        ++ terminal.styled .dim (listed skipped)]

theorem report_lines (terminal : Terminal) (report : RunReport) :
    terminal.report report = "\n".intercalate (report.results.flatMap terminal.result
      ++ terminal.totals report
        :: terminal.failureLines report.failedSteps (listedSkips report)) := by
  rw [Terminal.report, failureLines, listedSkips]
  by_cases noneFailed : report.failedSteps.isEmpty = true
  · simp only [noneFailed, if_true]
    rfl
  · simp only [noneFailed]
    rfl

theorem skipped_by_failure_of_dependency (id failed : String) :
    isSkippedByFailure (.skipped id (SkipReason.dependencyFailed failed)) = true := by
  simp [isSkippedByFailure, StepResult.skipped, SkipReason.dependencyFailed, toString]

theorem not_skipped_by_failure_of_condition (id : String) :
    isSkippedByFailure (.skipped id SkipReason.conditionFalse) = false := by
  simp [isSkippedByFailure, StepResult.skipped, SkipReason.conditionFalse]

end Terminal

end PipelineWaves
