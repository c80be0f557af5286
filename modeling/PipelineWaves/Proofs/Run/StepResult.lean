import Mathlib
import PipelineWaves.Proofs.Recipe.Call

/-!
# Results of steps

What the result of a step says of the processes of the step. Its outcome, its detail and its
exit code are set in three places, and they agree: the step failed with an exit code exactly
when the last process that was recorded did, and then the detail names that code.
-/

set_option autoImplicit false

namespace PipelineWaves

namespace RecipeError

def exitText : String := "process exited with code "

theorem message_exited (code : Int) : (exited code).message = exitText ++ toString code := rfl

theorem message_first {error : RecipeError} (noCode : error.exitCode? = none) :
    error.message.toList.head? ≠ some 'p' := by
  cases error with
  | exited code => cases noCode
  | _ =>
      -- The equations of `message` are slow to make, so it is opened without them.
      delta message
      simp [toString]

/-- Only the failure of a process is reported in these words. -/
theorem message_eq_exit_text_iff (error : RecipeError) (code : Int) :
    error.message = exitText ++ toString code ↔ error.exitCode? = some code := by
  constructor
  · intro same
    cases found : error.exitCode? with
    | none =>
        have first := message_first found
        rw [same, exitText, String.toList_append, List.head?_append] at first
        exact absurd rfl first
    | some own =>
        cases error with
        | exited own =>
            cases found
            rw [message_exited, String.append_right_inj] at same
            exact congrArg some (Int.repr_injective same)
        | _ => cases found
  · intro own
    cases error with
    | exited own =>
        cases own
        exact message_exited code
    | _ => cases own

end RecipeError

def recordedOutputs (calls : List ProcessCall) : List ProcessOutput :=
  calls.filterMap ProcessCall.recorded?

/-- The result tells what came of these processes. -/
structure StepResult.Tells (result : StepResult) (calls : List ProcessCall) : Prop where
  /-- A step succeeds or fails, and has a detail exactly if it fails. -/
  ends : (result.outcome = .success ∧ result.detail = none) ∨
    (result.outcome = .failed ∧ result.detail ≠ none)
  stdout : result.stdout = String.join ((recordedOutputs calls).map ProcessOutput.stdout)
  stderr : result.stderr = String.join ((recordedOutputs calls).map ProcessOutput.stderr)
  /-- The exit code is that of the last recorded process; a killed one counts as minus one. -/
  exitCode : result.exitCode = (recordedOutputs calls).getLast?.map ProcessOutput.exitCode
  succeeds : result.outcome = .success → result.exitCode = none ∨ result.exitCode = some 0
  fails : ∀ code, (result.exitCode = some code ∧ code ≠ 0) ↔
    (result.outcome = .failed ∧ result.detail = some (RecipeError.exitText ++ toString code))
  /-- Nothing is asked of the machine after a recorded process that failed. -/
  stops : ∀ front call back, calls = front ++ call :: back →
    (∃ output, call.recorded? = some output ∧ output.isSuccess = false) → back = []

theorem ProcessOutput.is_success_iff (output : ProcessOutput) :
    output.isSuccess = true ↔ output.exitCode = 0 := by
  obtain ⟨stdout, stderr, ending⟩ := output
  cases ending <;> simp [isSuccess, exitCode]

namespace Proceeds

variable {machine : Machine} {calls : List ProcessCall} {world after : World}
  {ending : Except RecipeError Unit} {output : CapturedOutput}

/-- The captured exit code is the one that the failure names, or it is no failure. -/
theorem exit_code_iff
    (proceeds : Proceeds machine calls ⟨world, .none⟩ (ending, ⟨after, output⟩)) (code : Int) :
    (output.exitCode = some code ∧ code ≠ 0) ↔ failingCode? ending = some code := by
  have captured : output.exitCode =
      ((recordedOutputs calls).getLast?.map ProcessOutput.exitCode).or none := by
    rw [show output = _ from proceeds.output]
    exact CapturedOutput.exit_code_recorded _ _
  have closed : failingCode? ending = _ := proceeds.closes.code_eq
  rw [captured, closed, ← recordedOutputs]
  cases (recordedOutputs calls).getLast? with
  | none => simp
  | some last =>
      have success := last.is_success_iff
      cases isSuccess : last.isSuccess with
      | true =>
          have zero := success.1 isSuccess
          simp only [Option.map_some, Option.or_none, zero, Option.some.injEq, Option.bind_some,
            isSuccess, if_true, reduceCtorEq, iff_false, not_and, not_not]
          exact Eq.symm
      | false =>
          have notZero : last.exitCode ≠ 0 := fun zero => by simp [success.2 zero] at isSuccess
          simp only [Option.map_some, Option.or_none, Option.some.injEq, Option.bind_some,
            isSuccess, Bool.false_eq_true, if_false]
          exact ⟨And.left, fun same => ⟨same, same ▸ notZero⟩⟩

theorem stops (proceeds : Proceeds machine calls ⟨world, .none⟩ (ending, ⟨after, output⟩))
    {front back : List ProcessCall} {call : ProcessCall} {written : ProcessOutput}
    (split : calls = front ++ call :: back) (recorded : call.recorded? = some written)
    (failed : written.isSuccess = false) : back = [] := by
  have closes := proceeds.closes
  rw [split] at closes
  exact closes.last (by simp [ProcessCall.failedCode?, recorded, failed])

end Proceeds

namespace Workshop

theorem perform_proceeds {workshop : Workshop}
    (unhandled : ∀ typeName, workshop.registry.handlers.get? typeName = none) (action : Action)
    (environment : Environment) (world : World) :
    ∃ calls ending, (workshop.perform action environment world).result = ending.mapError .failed ∧
      Proceeds workshop.machine calls ⟨world, .none⟩
        (ending, ⟨(workshop.perform action environment world).world,
          (workshop.perform action environment world).output⟩) ∧
      ((action.ready workshop.settings workshop.machine.home).isOk = false →
        calls = [] ∧ ending.isOk = false ∧
          (workshop.perform action environment world).world = world) := by
  rw [perform]
  cases ready : action.ready workshop.settings workshop.machine.home with
  | error error =>
      have noCode := action.ready_never_exits workshop.settings workshop.machine.home
      rw [ready] at noCode
      exact ⟨[], .error error, rfl, .unchanged noCode, fun _ => ⟨rfl, rfl, rfl⟩⟩
  | ok accepted =>
      have isOther (program : String) (arguments : List String)
          (isTool : accepted = .tool program arguments) :
          arguments ≠ ProcessCall.branchQuestion := by
        rw [isTool] at ready
        exact Action.ready_tool ready
      obtain ⟨calls, ending, after, ended, proceeds⟩ := ReadyAction.run_asks unhandled
        (workshop.placeFor environment) isOther ⟨world, .none⟩
      dsimp only
      rw [ended]
      refine ⟨calls, ending, rfl, proceeds, ?_⟩
      intro rejected
      cases rejected

end Workshop

def StepResult.IsOf (result : StepResult) : Except RecipeError Unit → Prop
  | .ok _ => result.outcome = .success ∧ result.detail = none
  | .error error => result.outcome = .failed ∧ result.detail = some error.message

theorem StepResult.IsOf.fails_with_code_iff {result : StepResult} {ending : Except RecipeError Unit}
    (isOf : result.IsOf ending) (code : Int) :
    (result.outcome = .failed ∧ result.detail = some (RecipeError.exitText ++ toString code)) ↔
      failingCode? ending = some code := by
  cases ending with
  | ok _ => simp [isOf.1, failingCode?]
  | error error =>
      simp only [isOf.1, isOf.2, true_and, Option.some.injEq, failingCode?,
        RecipeError.message_eq_exit_text_iff]

theorem Proceeds.tells {machine : Machine} {calls : List ProcessCall} {world after : World}
    {ending : Except RecipeError Unit} {result : StepResult}
    (proceeds : Proceeds machine calls ⟨world, .none⟩
      (ending, ⟨after, ⟨result.stdout, result.stderr, result.exitCode⟩⟩))
    (isOf : result.IsOf ending) : result.Tells calls := by
  have output := proceeds.output
  have fails (code : Int) :=
    (proceeds.exit_code_iff code).trans (isOf.fails_with_code_iff code).symm
  refine ⟨?_, ?_, ?_, ?_, ?_, fails, ?_⟩
  · cases ending with
    | ok _ => exact .inl isOf
    | error error => exact .inr ⟨isOf.1, by simp [isOf.2]⟩
  · have written := congrArg CapturedOutput.stdout output
    rwa [CapturedOutput.stdout_recorded, CapturedOutput.none, String.empty_append] at written
  · have written := congrArg CapturedOutput.stderr output
    rwa [CapturedOutput.stderr_recorded, CapturedOutput.none, String.empty_append] at written
  · have last := congrArg CapturedOutput.exitCode output
    rwa [CapturedOutput.exit_code_recorded, CapturedOutput.none, Option.or_none] at last
  · intro success
    cases code : result.exitCode with
    | none => exact .inl rfl
    | some code' =>
        by_contra nonzero
        have failed := ((fails code').1 ⟨code, fun zero => nonzero (.inr (zero ▸ rfl))⟩).1
        rw [success] at failed
        cases failed
  · rintro front call back split ⟨written, recorded, failed⟩
    exact proceeds.stops split recorded failed

theorem Workshop.step_result_of_ending (ending : Except RecipeError Unit) (output : CapturedOutput)
    (after : World) (step : Step) (now : Instant) :
    ∃ result, stepResult? ⟨ending.mapError .failed, output, after⟩ step now = some result ∧
      result.stepId = step.id ∧ result.IsOf ending ∧
      output = ⟨result.stdout, result.stderr, result.exitCode⟩ := by
  cases ending with
  | ok _ => exact ⟨_, rfl, rfl, ⟨rfl, rfl⟩, rfl⟩
  | error error => exact ⟨_, rfl, rfl, ⟨rfl, rfl⟩, rfl⟩

/-- Every step that no handler of the registry carries out leaves a result, and the result tells
what came of the processes that the step asked for. A step whose action is rejected asks for
none and writes nothing. -/
theorem step_results_are_coherent (workshop : Workshop)
    (unhandled : ∀ typeName, workshop.registry.handlers.get? typeName = none) (now : Instant)
    (dispatch : Dispatch) (world : World) :
    ∃ result after calls, workshop.carryOut now dispatch world = (some result, after) ∧
      result.stepId = dispatch.step.id ∧ Unfolds workshop.machine world calls after ∧
      result.Tells calls ∧
      ((dispatch.step.action.ready workshop.settings workshop.machine.home).isOk = false →
        calls = [] ∧ after = world ∧ result.outcome = .failed ∧ result.stdout = "" ∧
          result.stderr = "" ∧ result.exitCode = none) := by
  obtain ⟨calls, ending, ended, proceeds, rejected⟩ := workshop.perform_proceeds unhandled
    dispatch.step.action dispatch.environment world
  rw [Workshop.carryOut]
  generalize workshop.perform dispatch.step.action dispatch.environment world = performance
    at ended proceeds rejected
  obtain ⟨performed, output, after⟩ := performance
  obtain rfl : performed = _ := ended
  obtain ⟨result, leaves, sameId, isOf, rfl⟩ :=
    Workshop.step_result_of_ending ending output after dispatch.step now
  have tells := proceeds.tells isOf
  refine ⟨result, after, calls, by rw [leaves], sameId, proceeds.unfolds, tells, ?_⟩
  intro isRejected
  obtain ⟨rfl, notOk, sameWorld⟩ := rejected isRejected
  have failed : result.outcome = .failed := by
    cases ending with
    | ok _ => cases notOk
    | error error => exact isOf.1
  exact ⟨rfl, sameWorld, failed, tells.stdout, tells.stderr, tells.exitCode⟩

def switchingStep : Step := ⟨"source", "source", .checkout "origin" "main" "app", [], {}, none⟩

/-- On this machine the working copy stands on another branch, and what switches it is killed. -/
def killingMachine : Machine :=
  { home := "/root"
    launch := fun launch world =>
      let output : ProcessOutput :=
        match launch.arguments.head? with
        | some "rev-parse" => .ofTexts "dev\n" "" (.exited 0)
        | some "fetch" => .ofTexts "" "From origin\n" (.exited 0)
        | _ => .ofTexts "M app\n" "" .killed
      (.ok output, world.files) }

def killingWorkshop : Workshop :=
  ⟨{ RecipeSettings.standard with workspace := ⟨"/work"⟩ }, .empty, killingMachine⟩

def workingCopy : World :=
  ⟨⟨.directory [("work", .directory [("app", .directory [(".git", .directory [])])])], []⟩, []⟩

/-- Three processes are asked for, and the two behind the question are recorded. -/
theorem killed_switch_is_coherent :
    (∀ typeName, killingWorkshop.registry.handlers.get? typeName = none) ∧
    ∃ result after calls,
      killingWorkshop.carryOut ⟨0, 0⟩ ⟨switchingStep, {}⟩ workingCopy = (some result, after) ∧
      Unfolds killingMachine workingCopy calls after ∧ result.Tells calls ∧ calls.length = 3 ∧
      result.outcome = .failed ∧ result.stdout = "M app\n" ∧ result.stderr = "From origin\n" ∧
      result.exitCode = some (-1) ∧ result.detail = some "process exited with code -1" := by
  refine ⟨fun _ => rfl, ?_⟩
  obtain ⟨result, after, calls, carried, _, unfolds, tells, _⟩ :=
    step_results_are_coherent killingWorkshop (fun _ => rfl) ⟨0, 0⟩ ⟨switchingStep, {}⟩ workingCopy
  have shown : (killingWorkshop.carryOut ⟨0, 0⟩ ⟨switchingStep, {}⟩ workingCopy).1.map
        (fun result => (result.outcome, result.stdout, result.stderr, result.exitCode,
          result.detail)) =
      some (.failed, "M app\n", "From origin\n", some (-1),
        some "process exited with code -1") := by
    decide +kernel
  have asked : (killingWorkshop.carryOut ⟨0, 0⟩ ⟨switchingStep, {}⟩ workingCopy).2.launches.length =
      3 := by
    decide +kernel
  rw [carried] at shown asked
  rw [unfolds.launches_eq] at asked
  simp only [Option.map_some, Option.some.injEq, Prod.mk.injEq] at shown
  have length : calls.length = 3 := by simpa [workingCopy] using asked
  exact ⟨result, after, calls, carried, unfolds, tells, length, shown⟩

end PipelineWaves
