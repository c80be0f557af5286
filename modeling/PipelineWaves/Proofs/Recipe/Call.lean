import PipelineWaves.Proofs.Recipe.Launch

/-!
# Processes that a recipe asks for

A recipe asks the machine for one process after the other and works on files in between.
`Unfolds` lists the processes with the answers of the machine. Only the last of them can be
one that was recorded and failed, and the recipe fails with its exit code exactly then. One
rule for each way of putting a recipe together says so.
-/

set_option autoImplicit false

namespace PipelineWaves

/-- A process that was asked for, and what came of it. -/
structure ProcessCall where
  launch : Launch
  answer : Except LaunchFault ProcessOutput

namespace ProcessCall

/-- Asks a working copy for its branch; the answer is looked at, but not recorded. -/
def branchQuestion : List String := ["rev-parse", "--abbrev-ref", "HEAD"]

def recorded? (call : ProcessCall) : Option ProcessOutput :=
  if call.launch.arguments = branchQuestion then none else call.answer.toOption

/-- The exit code of a recorded process that failed. -/
def failedCode? (call : ProcessCall) : Option Int :=
  match call.recorded? with
  | some output => if output.isSuccess then none else some output.exitCode
  | none => none

theorem recorded_of_answer {launch : Launch} (isOther : launch.arguments ≠ branchQuestion)
    (answer : Except LaunchFault ProcessOutput) :
    (ProcessCall.mk launch answer).recorded? = answer.toOption :=
  if_neg isOther

end ProcessCall

/-- The machine was asked for these processes one after the other. -/
inductive Unfolds (machine : Machine) : World → List ProcessCall → World → Prop where
  | still (world : World) : Unfolds machine world [] world
  | files {before after : World} {calls : List ProcessCall} (files : Files)
      (later : Unfolds machine ⟨files, before.launches⟩ calls after) :
      Unfolds machine before calls after
  | asks {before after : World} {calls : List ProcessCall} (launch : Launch)
      (later : Unfolds machine
        ⟨(machine.launch launch before).2, before.launches ++ [launch]⟩ calls after) :
      Unfolds machine before (⟨launch, (machine.launch launch before).1⟩ :: calls) after

namespace Unfolds

variable {machine : Machine} {before middle after : World} {calls more : List ProcessCall}

theorem trans (first : Unfolds machine before calls middle)
    (second : Unfolds machine middle more after) :
    Unfolds machine before (calls ++ more) after := by
  induction first with
  | still world => exact second
  | files files later induction => exact .files files (induction second)
  | asks launch later induction => exact .asks launch (induction second)

theorem launches_eq (unfolds : Unfolds machine before calls after) :
    after.launches = before.launches ++ calls.map ProcessCall.launch := by
  induction unfolds with
  | still world => exact (List.append_nil _).symm
  | files files later induction => exact induction
  | asks launch later induction => rw [induction, List.append_assoc]; rfl

end Unfolds

/-- No process was asked for after one that was recorded and failed; the code is its own. -/
inductive Closes : List ProcessCall → Option Int → Prop where
  | quiet : Closes [] none
  | failing {call : ProcessCall} {code : Int} (failed : call.failedCode? = some code) :
      Closes [call] (some code)
  | passing {call : ProcessCall} {calls : List ProcessCall} {code : Option Int}
      (passes : call.failedCode? = none) (later : Closes calls code) : Closes (call :: calls) code

namespace Closes

variable {calls more : List ProcessCall} {code : Option Int}

theorem trans (first : Closes calls none) (second : Closes more code) :
    Closes (calls ++ more) code := by
  generalize noCode : (none : Option Int) = ending at first
  induction first with
  | quiet => exact second
  | failing failed => cases noCode
  | passing passes later induction => exact .passing passes (induction noCode)

theorem last {front back : List ProcessCall} {call : ProcessCall}
    (closes : Closes (front ++ call :: back) code) (failed : call.failedCode? ≠ none) :
    back = [] := by
  induction front with
  | nil =>
      rw [List.nil_append] at closes
      cases closes with
      | failing => rfl
      | passing passes later => exact absurd passes failed
  | cons first front induction =>
      rw [List.cons_append] at closes
      generalize others : front ++ call :: back = rest at closes
      cases closes with
      | failing => exact absurd others (by simp)
      | passing passes later => exact induction (others ▸ later)

/-- The last recorded process, if there is one, decides on the code. -/
theorem code_eq (closes : Closes calls code) :
    code = ((calls.filterMap ProcessCall.recorded?).getLast?.bind fun output =>
      if output.isSuccess then none else some output.exitCode) := by
  induction closes with
  | quiet => rfl
  | @failing call code failed =>
      rw [ProcessCall.failedCode?] at failed
      split at failed
      · rename_i output recorded
        simpa [recorded] using failed.symm
      · cases failed
  | @passing call calls code passes later induction =>
      rw [ProcessCall.failedCode?] at passes
      rw [List.filterMap_cons]
      cases recorded : call.recorded? with
      | none => exact induction
      | some output =>
          rw [recorded] at passes
          cases others : calls.filterMap ProcessCall.recorded? with
          | nil =>
              rw [others] at induction
              rw [induction]
              exact passes.symm
          | cons next rest => simpa [others] using induction

end Closes

def RecipeError.exitCode? : RecipeError → Option Int
  | .exited code => some code
  | _ => none

def failingCode? {Result : Type} : Except RecipeError Result → Option Int
  | .ok _ => none
  | .error error => error.exitCode?

theorem failing_code_bind {First Second : Type} {first : Except RecipeError First}
    {next : First → Except RecipeError Second} (own : failingCode? first = none)
    (later : ∀ value, failingCode? (next value) = none) :
    failingCode? (first >>= next) = none := by
  cases first with
  | error error => exact own
  | ok value => exact later value

namespace CapturedOutput

variable (captured : CapturedOutput) (outputs : List ProcessOutput)

theorem stdout_recorded : (outputs.foldl record captured).stdout =
    captured.stdout ++ String.join (outputs.map ProcessOutput.stdout) := by
  induction outputs generalizing captured with
  | nil => simp
  | cons output rest induction =>
      rw [List.foldl_cons, induction, List.map_cons, String.join_cons, ← String.append_assoc]
      rfl

theorem stderr_recorded : (outputs.foldl record captured).stderr =
    captured.stderr ++ String.join (outputs.map ProcessOutput.stderr) := by
  induction outputs generalizing captured with
  | nil => simp
  | cons output rest induction =>
      rw [List.foldl_cons, induction, List.map_cons, String.join_cons, ← String.append_assoc]
      rfl

theorem exit_code_recorded : (outputs.foldl record captured).exitCode =
    (outputs.getLast?.map ProcessOutput.exitCode).or captured.exitCode := by
  induction outputs generalizing captured with
  | nil => rfl
  | cons output rest induction =>
      rw [List.foldl_cons, induction, List.getLast?_cons]
      cases rest.getLast? <;> rfl

end CapturedOutput

/-- What came of a part of a recipe that asked for these processes. -/
structure Proceeds {Result : Type} (machine : Machine) (calls : List ProcessCall)
    (before : StepState) (ending : Except RecipeError Result × StepState) : Prop where
  unfolds : Unfolds machine before.world calls ending.2.world
  closes : Closes calls (failingCode? ending.1)
  output : ending.2.output =
    (calls.filterMap ProcessCall.recorded?).foldl CapturedOutput.record before.output

namespace Proceeds

variable {Result : Type} {machine : Machine} {before : StepState}

theorem without_processes {result : Except RecipeError Result} {files : Files}
    (noCode : failingCode? result = none) :
    Proceeds machine [] before (result, before.withFiles files) :=
  ⟨.files files (.still _), by rw [noCode]; exact .quiet, rfl⟩

theorem unchanged {result : Except RecipeError Result} (noCode : failingCode? result = none) :
    Proceeds machine [] before (result, before) :=
  ⟨.still _, by rw [noCode]; exact .quiet, rfl⟩

end Proceeds

namespace Attempt

variable {State Result Next : Type} {machine : Machine}

/-- Wherever it starts, the attempt asks the machine for processes and ends as they do. -/
def Asks (attempt : Attempt StepState RecipeError Result) (machine : Machine) : Prop :=
  ∀ state, ∃ calls, Proceeds machine calls state (attempt.outcome state)

theorem pure_asks (result : Result) :
    (pure result : Attempt StepState RecipeError Result).Asks machine :=
  fun _ => ⟨[], .unchanged rfl⟩

theorem throw_asks {error : RecipeError} (noCode : error.exitCode? = none) :
    (throw error : Attempt StepState RecipeError Result).Asks machine :=
  fun _ => ⟨[], .unchanged noCode⟩

theorem reading_asks {look : StepState → Except RecipeError Result}
    (noCode : ∀ state, failingCode? (look state) = none) : (reading look).Asks machine :=
  fun state => ⟨[], .unchanged (noCode state)⟩

theorem Asks.bind {attempt : Attempt StepState RecipeError Result}
    {next : Result → Attempt StepState RecipeError Next} (first : attempt.Asks machine)
    (continues : ∀ result, (next result).Asks machine) : (attempt >>= next).Asks machine := by
  intro state
  obtain ⟨calls, unfolds, closes, output⟩ := first state
  rw [outcome_bind]
  cases ended : attempt.outcome state with
  | mk result after =>
      rw [ended] at unfolds closes output
      cases result with
      | error failure => exact ⟨calls, unfolds, closes, output⟩
      | ok result =>
          obtain ⟨more, unfoldsOn, closesOn, outputOn⟩ := continues result after
          refine ⟨calls ++ more, unfolds.trans unfoldsOn, closes.trans closesOn, ?_⟩
          rw [outputOn, output, List.filterMap_append, List.foldl_append]

theorem Asks.get_bind {next : StepState → Attempt StepState RecipeError Result}
    (continues : ∀ state, (next state).Asks machine) :
    (get >>= next : Attempt StepState RecipeError Result).Asks machine :=
  fun state => continues state state

theorem Asks.discard {attempt : Attempt StepState RecipeError Result}
    (asks : attempt.Asks machine) :
    (Functor.discard attempt : Attempt StepState RecipeError Unit).Asks machine :=
  asks.bind fun _ => pure_asks ()

theorem Asks.mapFailure {attempt : Attempt StepState RecipeError Result}
    {change : RecipeError → RecipeError} (asks : attempt.Asks machine)
    (sameCode : ∀ error, (change error).exitCode? = error.exitCode?) :
    (attempt.mapFailure change).Asks machine := by
  intro state
  obtain ⟨calls, unfolds, closes, output⟩ := asks state
  rw [outcome_map_failure]
  refine ⟨calls, unfolds, ?_, output⟩
  cases ended : (attempt.outcome state).1 with
  | ok result => rwa [ended] at closes
  | error error =>
      rw [ended] at closes
      change Closes calls (change error).exitCode?
      rwa [sameCode]

/-- The attempt does not fail with the exit code of a process. -/
def NeverExits (attempt : Attempt State RecipeError Result) : Prop :=
  ∀ state, failingCode? (attempt.outcome state).1 = none

theorem NeverExits.bind {attempt : Attempt State RecipeError Result}
    {next : Result → Attempt State RecipeError Next} (first : attempt.NeverExits)
    (continues : ∀ result, (next result).NeverExits) : (attempt >>= next).NeverExits := by
  intro state
  have own := first state
  rw [outcome_bind]
  cases ended : attempt.outcome state with
  | mk result after =>
      rw [ended] at own
      cases result with
      | error failure => exact own
      | ok result => exact continues result after

theorem NeverExits.get_bind {next : State → Attempt State RecipeError Result}
    (continues : ∀ state, (next state).NeverExits) :
    (get >>= next : Attempt State RecipeError Result).NeverExits :=
  fun state => continues state state

theorem pure_never_exits (result : Result) :
    (pure result : Attempt State RecipeError Result).NeverExits :=
  fun _ => rfl

theorem on_files_asks {work : Attempt Files RecipeError Result} (never : work.NeverExits) :
    (Doing.onFiles work).Asks machine :=
  fun state => ⟨[], .without_processes (never state.files)⟩

end Attempt

open Attempt

namespace Artifact

theorem reported_never_exits {Result : Type} (path : FilePath) (call : FileCall Result) :
    (reportedAt path call).NeverExits := by
  intro files
  rw [reportedAt, outcome_map_failure]
  cases (call.outcome files).1 <;> rfl

theorem copy_file_never_exits (source destination : FilePath) :
    (copyFile source destination).NeverExits := by
  refine NeverExits.get_bind fun files => ?_
  dsimp only
  split
  · refine (reported_never_exits _ _).bind fun _ => ?_
    exact (reported_never_exits _ _).bind fun _ => pure_never_exits _
  · exact (reported_never_exits _ _).bind fun _ => pure_never_exits _

theorem copy_entries_never_exits {copy : FilePath → FilePath → Copying Nat}
    (each : ∀ source destination, (copy source destination).NeverExits)
    (source destination : FilePath) (names : List String) :
    (copyEntries copy source destination names).NeverExits := by
  induction names with
  | nil => exact pure_never_exits 0
  | cons name rest induction =>
      refine (each _ _).bind fun copied => ?_
      exact induction.bind fun others => pure_never_exits _

theorem copy_within_never_exits (depth : Nat) (source destination : FilePath) :
    (copyWithin depth source destination).NeverExits := by
  induction depth generalizing source destination with
  | zero => exact fun _ => rfl
  | succ depth induction =>
      refine (reported_never_exits _ _).bind fun found => ?_
      dsimp only
      split
      · refine (reported_never_exits _ _).bind fun _ => ?_
        exact (reported_never_exits _ _).bind fun names =>
          copy_entries_never_exits induction _ _ names
      · exact copy_file_never_exits _ _

end Artifact

theorem Doing.call_asks {Result : Type} {machine : Machine} (path : FilePath)
    (call : FileCall Result) : (Doing.call path call).Asks machine :=
  on_files_asks (Artifact.reported_never_exits path call)

namespace StepPlace

variable (place : StepPlace)

theorem start_unfolds (launch : Launch) (world : World) :
    place.start launch world = (.error .nulInData, world) ∨
      place.start launch world = ((place.machine.launch launch world).1,
        ⟨(place.machine.launch launch world).2, world.launches ++ [launch]⟩) := by
  rw [start]
  split
  · exact .inl rfl
  · exact .inr rfl

/-- The question for the branch is no recorded process, whatever comes of it. -/
theorem question_asks (directory : Option FilePath) (program : String) :
    (place.probe directory program ProcessCall.branchQuestion).Asks place.machine := by
  intro state
  have noCode (answer : Except LaunchFault ProcessOutput) : failingCode?
      (answer.mapError fun fault => RecipeError.notSpawned program fault.text) = none := by
    cases answer <;> rfl
  rcases place.start_unfolds (place.launchOf directory program ProcessCall.branchQuestion)
    state.world with started | started
  · rw [probe_outcome started]
    exact ⟨[], .unchanged rfl⟩
  · rw [probe_outcome started]
    refine ⟨_, .asks _ (.still _), ?_, rfl⟩
    rw [noCode]
    exact .passing rfl .quiet

theorem record_outcome (output : ProcessOutput) (state : StepState) :
    (record output >>= fun _ =>
      if output.isSuccess then pure () else throw (.exited output.exitCode) : Doing Unit).outcome
        state =
      (if output.isSuccess then .ok () else .error (.exited output.exitCode),
        { state with output := state.output.record output }) := by
  cases output.isSuccess <;> rfl

/-- Every other process is recorded, and its failure is the failure of the recipe. -/
theorem run_asks (directory : Option FilePath) (program : String) {arguments : List String}
    (isOther : arguments ≠ ProcessCall.branchQuestion) :
    (place.run directory program arguments).Asks place.machine := by
  intro state
  rw [run, outcome_bind]
  rcases place.start_unfolds (place.launchOf directory program arguments) state.world with
    started | started
  · rw [probe_outcome started]
    exact ⟨[], .unchanged rfl⟩
  · rw [probe_outcome started]
    have asked : Unfolds place.machine state.world _ _ :=
      .asks (place.launchOf directory program arguments) (.still _)
    generalize place.machine.launch (place.launchOf directory program arguments) state.world =
      answered at asked
    obtain ⟨answer, files⟩ := answered
    have recorded := ProcessCall.recorded_of_answer
      (show (place.launchOf directory program arguments).arguments ≠ _ from isOther) answer
    cases answer with
    | error fault =>
        refine ⟨_, asked, .passing ?_ .quiet, ?_⟩
        · rw [ProcessCall.failedCode?, recorded]
          rfl
        · rw [List.filterMap_cons, recorded]
          rfl
    | ok output =>
        refine ⟨[⟨place.launchOf directory program arguments, .ok output⟩], ?_⟩
        change Proceeds place.machine _ state (outcome (record output >>= _) _)
        rw [record_outcome]
        refine ⟨asked, ?_, ?_⟩
        · cases success : output.isSuccess with
          | true =>
              refine .passing ?_ .quiet
              simp [ProcessCall.failedCode?, recorded, Except.toOption, success]
          | false =>
              refine .failing ?_
              simp [ProcessCall.failedCode?, recorded, Except.toOption, success]
        · rw [List.filterMap_cons, recorded]
          rfl

end StepPlace

theorem CacheArchive.save_asks (archive : CacheArchive) (tar : String) (paths : List String)
    (place : StepPlace) : (archive.save tar paths place).Asks place.machine := by
  refine Asks.get_bind fun state => ?_
  dsimp only
  split
  · exact pure_asks ()
  · exact (Doing.call_asks _ _).bind fun _ =>
      place.run_asks _ _ (by simp [ProcessCall.branchQuestion])

theorem CacheArchive.restore_asks (archive : CacheArchive) (tar : String) (place : StepPlace) :
    (archive.restore tar place).Asks place.machine := by
  refine Asks.get_bind fun state => ?_
  split
  · exact (Doing.call_asks _ _).bind fun _ =>
      place.run_asks _ _ (by simp [ProcessCall.branchQuestion])
  · exact pure_asks ()

namespace Checkout

variable (checkout : Checkout) (place : StepPlace)

theorem inspect_never_exits (files : Files) (target : FilePath) :
    failingCode? (inspect files target) = none := by
  rw [inspect]
  split
  · rfl
  · split <;> rfl

theorem switch_asks : (checkout.switch place).Asks place.machine := by
  refine (place.run_asks _ _ ?_).bind fun _ => place.run_asks _ _ ?_
  · simp [ProcessCall.branchQuestion]
  · simp [ProcessCall.branchQuestion]

theorem clone_asks : (checkout.clone place).Asks place.machine := by
  rw [clone]
  split
  · exact (Doing.call_asks _ _).bind fun _ =>
      place.run_asks _ _ (by simp [ProcessCall.branchQuestion])
  · exact (pure_asks _).bind fun _ => place.run_asks _ _ (by simp [ProcessCall.branchQuestion])

theorem run_asks : (checkout.run place).Asks place.machine := by
  refine (reading_asks fun state => inspect_never_exits _ _).bind fun found => ?_
  cases found with
  | occupied => exact throw_asks rfl
  | missing => exact checkout.clone_asks place
  | repository =>
      refine ((place.question_asks _ _).bind fun output => pure_asks _).bind fun branch => ?_
      split
      · exact pure_asks ()
      · exact checkout.switch_asks place

end Checkout

/-- The arguments of a handler start with hyphens, so they are no question for a branch. -/
theorem handler_arguments_ne_question (parameters : Dictionary String) :
    handlerArguments parameters ≠ ProcessCall.branchQuestion := by
  intro same
  have first := congrArg (fun arguments => (arguments.head?.map String.toList).bind List.head?) same
  rw [handlerArguments] at first
  cases entries : parameters.entries with
  | nil => simp [entries, ProcessCall.branchQuestion] at first
  | cons entry rest => simp [entries, ProcessCall.branchQuestion] at first

theorem CustomRegistry.program_asks (programPrefix typeName : String)
    (parameters : Dictionary String) (place : StepPlace) :
    (runProgram programPrefix typeName parameters place).Asks place.machine := by
  refine (place.run_asks _ _ (handler_arguments_ne_question parameters)).mapFailure fun error => ?_
  cases error <;> rfl

/-- The tools of an accepted action are not called with the question for a branch. -/
theorem Action.ready_tool {settings : RecipeSettings} {home : String} {action : Action}
    {program : String} {arguments : List String}
    (ready : action.ready settings home = .ok (.tool program arguments)) :
    arguments ≠ ProcessCall.branchQuestion := by
  cases action with
  | compile sourceFile outputName optimize =>
      obtain ⟨_, _, ready⟩ := except_bind_ok ready
      obtain ⟨_, _, ready⟩ := except_bind_ok ready
      cases ready
      simp [compileArguments, ProcessCall.branchQuestion]
  | testRun testFile filter =>
      obtain ⟨_, _, ready⟩ := except_bind_ok ready
      obtain ⟨_, _, ready⟩ := except_bind_ok ready
      cases ready
      cases filter <;> simp [testArguments, ProcessCall.branchQuestion]
  | shell command directory =>
      obtain ⟨_, _, ready⟩ := except_bind_ok ready
      obtain ⟨_, _, ready⟩ := except_bind_ok ready
      cases ready
  | checkout repository branch path =>
      obtain ⟨_, _, ready⟩ := except_bind_ok ready
      obtain ⟨_, _, ready⟩ := except_bind_ok ready
      obtain ⟨_, _, ready⟩ := except_bind_ok ready
      cases ready
  | artifact sourcePath destination =>
      obtain ⟨_, _, ready⟩ := except_bind_ok ready
      obtain ⟨_, _, ready⟩ := except_bind_ok ready
      cases ready
  | cache operation key paths directory =>
      obtain ⟨archive, _, ready⟩ := except_bind_ok ready
      cases operation <;> cases ready
  | custom typeName parameters =>
      obtain ⟨_, _, ready⟩ := except_bind_ok ready
      split at ready <;> cases ready

theorem require_never_exits (name value : String) :
    failingCode? (requireParameter name value) = none := by
  rw [requireParameter]
  split
  · rfl
  · split <;> rfl

theorem require_if_given_never_exits (name : String) (value : Option String) :
    failingCode? (Action.requireIfGiven name value) = none := by
  cases value with
  | none => rfl
  | some value => exact require_never_exits name value

/-- An action is not rejected for the exit code of a process. -/
theorem Action.ready_never_exits (settings : RecipeSettings) (home : String) (action : Action) :
    failingCode? (action.ready settings home) = none := by
  cases action with
  | shell command directory =>
      refine failing_code_bind (require_never_exits _ _) fun _ => ?_
      exact failing_code_bind (require_if_given_never_exits _ _) fun _ => rfl
  | compile sourceFile outputName optimize =>
      refine failing_code_bind (require_never_exits _ _) fun _ => ?_
      exact failing_code_bind (require_never_exits _ _) fun _ => rfl
  | testRun testFile filter =>
      refine failing_code_bind (require_never_exits _ _) fun _ => ?_
      exact failing_code_bind (require_if_given_never_exits _ _) fun _ => rfl
  | checkout repository branch path =>
      refine failing_code_bind (require_never_exits _ _) fun _ => ?_
      refine failing_code_bind (require_never_exits _ _) fun _ => ?_
      exact failing_code_bind (require_never_exits _ _) fun _ => rfl
  | artifact sourcePath destination =>
      refine failing_code_bind (require_never_exits _ _) fun _ => ?_
      exact failing_code_bind (require_never_exits _ _) fun _ => rfl
  | cache operation key paths directory =>
      have archive : failingCode? (CacheArchive.of settings home key directory) = none := by
        refine failing_code_bind ?_ fun _ => rfl
        rw [validateKey]
        split <;> rfl
      refine failing_code_bind archive fun _ => ?_
      cases operation <;> rfl
  | custom typeName parameters =>
      refine failing_code_bind (require_never_exits _ _) fun _ => ?_
      split
      · rename_i error fault
        obtain ⟨name, _, found⟩ := List.exists_of_findSome?_eq_some fault
        rw [parameterNameFault?] at found
        split at found
        · cases found
          rfl
        · cases found
      · rfl

/-- Everything but a custom action asks the machine as its recipe does. -/
theorem ReadyAction.run_own_asks (place : StepPlace) {action : ReadyAction}
    (isOther : ∀ program arguments, action = .tool program arguments →
      arguments ≠ ProcessCall.branchQuestion) :
    (runOwn place action).Asks place.machine := by
  cases action with
  | shell command directory => exact place.run_asks _ _ (by simp [ProcessCall.branchQuestion])
  | tool program arguments => exact place.run_asks _ _ (isOther program arguments rfl)
  | checkout copy => exact copy.run_asks place
  | artifact source target =>
      exact (on_files_asks (Artifact.copy_within_never_exits _ source target)).discard
  | save archive tar paths => exact archive.save_asks tar paths place
  | restore archive tar => exact archive.restore_asks tar place
  | custom typeName parameters => exact pure_asks ()

/-- What an action asks for and how it ends, if nothing but processes carries it out. -/
theorem ReadyAction.run_asks {registry : CustomRegistry}
    (unhandled : ∀ typeName, registry.handlers.get? typeName = none) (place : StepPlace)
    {action : ReadyAction}
    (isOther : ∀ program arguments, action = .tool program arguments →
      arguments ≠ ProcessCall.branchQuestion) (state : StepState) :
    ∃ calls ending after,
      (action.run registry place).outcome state = (ending.mapError .failed, after) ∧
        Proceeds place.machine calls state (ending, after) := by
  have own (recipe : Doing Unit) (asks : recipe.Asks place.machine) :
      ∃ calls ending after,
        (recipe.mapFailure ActionFailure.failed).outcome state = (ending.mapError .failed, after) ∧
          Proceeds place.machine calls state (ending, after) := by
    obtain ⟨calls, proceeds⟩ := asks state
    exact ⟨calls, _, _, outcome_map_failure recipe _ state, proceeds⟩
  cases action with
  | custom typeName parameters =>
      rw [run, CustomRegistry.dispatch, unhandled]
      cases registry.programPrefix with
      | none => exact ⟨[], .error (.handlerFailed typeName CustomRegistry.noHandler), state, rfl,
          .unchanged rfl⟩
      | some programPrefix =>
          exact own _ (CustomRegistry.program_asks programPrefix typeName parameters place)
  | _ => exact own _ (run_own_asks place isOther)

end PipelineWaves
