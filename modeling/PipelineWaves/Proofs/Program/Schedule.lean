import PipelineWaves.Proofs.Program.Condition
import PipelineWaves.Proofs.Program.Simulation
import PipelineWaves.Proofs.Run.FinishingOrder
import PipelineWaves.Proofs.Terminal.Listing

/-!
# Programs schedule like runs

A generated program that is read back from its text and started ends as an
uninterrupted run of its pipeline does, if the steps end alike and those of a wave
finish in its order. Every step has the same outcome, every skipped step the same
reason, and the exit codes and the lists at the end are the same. The limit on how many
steps are carried out side by side makes no difference.
-/

set_option autoImplicit false

namespace PipelineWaves

namespace CompiledPipeline

variable {pipeline : Pipeline} {compiled : CompiledPipeline}

theorem condition_of_arm (compiles : compile pipeline = .ok compiled) {arms : List (Nat × String)}
    {tables : EmittedTables} {index : Nat} {step : Step} (isAt : compiled.IsAt index step)
    (isArm : (ProgramTables.of compiled).IsArm step.id index (arms.lookup index))
    (outcomes : Outcomes) :
    ScheduledProgram.conditionHolds? ⟨tables, arms⟩ index
        (ProgramStep.of compiled.pipeline step).environment
        (compiled.graph.planIds.map outcomes) =
      some (compiled.conditionHolds outcomes step) := by
  have plans := compile_plans compiles
  have samePipeline := (compile_parts compiles).1
  subst samePipeline
  have planned := plan_steps_at plans isAt.declared isAt.planned
  rw [ProgramTables.IsArm, ProgramTables.condition_at planned, index_of_plan plans] at isArm
  rw [conditionHolds, ScheduledProgram.conditionHolds?]
  cases has : compiled.condition? step.id with
  | none =>
      rw [has] at isArm
      rw [isArm]
  | some condition =>
      rw [has] at isArm
      obtain ⟨source, written, atArm⟩ := isArm
      have known : ∀ id ∈ condition.steps, ∃ index, compiled.position? id = some index ∧
          compiled.graph.planIds[index]? = some id := by
        intro id asked
        have declared := condition_steps_declared compiles isAt.declared has asked
        exact position_of_planned (plans.mem_plan_ids.2 declared)
      have value := value_of_condition (compiled.pipeline.environmentOf step) outcomes condition
        known
      rw [atArm]
      simp only [Option.bind_eq_bind, ProgramExpression.read_text written, Option.bind_some]
      exact congrArg (Option.bind · ExpressionValue.boolean?) value

theorem read_is_of (compiles : compile pipeline = .ok compiled) {program : GeneratedProgram}
    (generated : compiled.generate = .ok program) :
    ∃ scheduled : ScheduledProgram, program.main?.bind ScheduledProgram.read = some scheduled ∧
      scheduled.IsOf compiled := by
  have plans := compiled_plans compiles
  obtain ⟨arms, read, _, atArms⟩ := ProgramTables.read_program generated
  refine ⟨_, read, rfl, rfl, rfl, fun index step isAt outcomes => ?_⟩
  exact condition_of_arm compiles isAt (atArms index _ (isAt.entry plans)) outcomes

end CompiledPipeline

theorem RunReport.exit_code_eq (report : RunReport) :
    report.exitCode = if report.failedSteps.isEmpty then 0 else 1 := by
  have same : report.isSuccess = report.failedSteps.isEmpty := by
    rw [isSuccess, failedSteps, idsWith, Bool.eq_iff_iff]
    simp [StepResult.isFailed]
  rw [exitCode, same]

section Listing

variable {ids : List String} {results : String → Option StepResult}

theorem ids_of_results (named : ∀ id result, results id = some result → result.stepId = id)
    {test : StepResult → Bool} {known : String → Bool}
    (each : ∀ id ∈ ids, (results id).any test = known id) :
    ((ids.filterMap results).filter test).map StepResult.stepId = ids.filter known := by
  induction ids with
  | nil => rfl
  | cons id rest induction =>
      obtain ⟨own, later⟩ := List.forall_mem_cons.1 each
      rw [List.filterMap_cons, List.filter_cons, ← own, ← induction later]
      cases found : results id with
      | none => rfl
      | some result =>
          have sameId := named id result found
          cases passes : test result <;> simp [passes, sameId]

end Listing

theorem ScheduledProgram.ids_where {Item : Type} {program : ScheduledProgram} {plan : List String}
    (ids : program.tables.steps.map ProgramStep.id = plan) (known : String → Item)
    (test : Item → Bool) :
    program.idsWhere (plan.map known) test = plan.filter fun id => test (known id) := by
  subst ids
  rw [idsWhere, List.map_map]
  generalize program.tables.steps = steps
  induction steps with
  | nil => rfl
  | cons step rest induction =>
      rw [List.map_cons, List.zip_cons_cons, List.filter_cons, List.map_cons, List.filter_cons,
        ← induction]
      cases passes : test (known step.id) <;> simp [passes]

/-- A finished program agrees with a report: position by position in the outcomes, step by
step in what is said of each, and in all that stands at the end. -/
structure ProgramRun.Agrees (run : ProgramRun) (report : RunReport) : Prop where
  outcomes : run.state.outcomes = report.results.map fun result => some result.outcome
  verdicts : (run.state.notices.map StepNotice.verdict).Perm
    (report.results.map StepResult.verdict)
  succeeded : run.succeeded = report.succeededSteps
  failed : run.failed = report.failedSteps
  skipped : run.skipped = report.skippedSteps
  skippedByFailure : run.skippedByFailure = Terminal.listedSkips report
  exitCode : run.exitCode = report.exitCode

section Whole

variable {compiled : CompiledPipeline} {program : ScheduledProgram} {endings : StepEndings}
  {runs : ProgramStep → Option StepRun} {State : Type} {surroundings : Surroundings State}

theorem program_ends (plans : compiled.graph.Plans compiled.pipeline)
    (isOf : program.IsOf compiled) (endAlike : EndAlike compiled.pipeline runs endings)
    (uninterrupted : surroundings.IsUninterrupted)
    (inOrder : surroundings.LeavesInOrder endings) (limit : Option Nat)
    (identifier : RunIdentifier) (around : State) :
    ∃ next, program.run limit runs = some (program.finish next) ∧
      Simulates compiled next (compiled.ended surroundings identifier around) ∧
      (compiled.ended surroundings identifier around).recordedIds.Perm
        compiled.graph.planIds := by
  let started : RunEvent := .runStarted identifier compiled.pipeline.name
    compiled.graph.planIds.length compiled.graph.waves.length
  obtain ⟨next, ran, simulates, ids⟩ := Simulates.run_waves plans isOf endAlike uninterrupted
    inOrder limit compiled.graph.waves (List.nil_append _).symm 0 around
    (Simulates.start compiled [started]) (List.Perm.refl _)
  have waves : program.tables.waves =
      ProgramTables.wavePositions 0 (compiled.graph.waves.map nodeIds) :=
    isOf.waves.trans (CompiledPipeline.table_waves plans)
  have size : program.tables.steps.length = compiled.graph.planIds.length := by
    rw [isOf.steps, ← CompiledPipeline.plan_steps_ids plans, ProgramTables.of, List.length_map,
      List.length_map]
  refine ⟨next, ?_, simulates, ids⟩
  rw [ScheduledProgram.run, waves, size]
  exact congrArg (Option.bind · _) ran

theorem program_ids (plans : compiled.graph.Plans compiled.pipeline)
    (isOf : program.IsOf compiled) :
    program.tables.steps.map ProgramStep.id = compiled.graph.planIds := by
  rw [isOf.steps, ← CompiledPipeline.plan_steps_ids plans, ProgramTables.of, List.map_map]
  rfl

section Ended

variable {progress : RunProgress} {state : SchedulerState}

/-- A step blames a failed one exactly when an ancestor of it failed. -/
theorem blame_iff (plans : compiled.graph.Plans compiled.pipeline)
    (simulates : Simulates compiled state progress) (distinct : progress.recordedIds.Nodup)
    (id : String) :
    (compiled.blame? progress.failures id).isSome = true ↔
      compiled.pipeline.HasFailedAncestor progress.resultOf id := by
  rw [CompiledPipeline.blame?]
  constructor
  · intro blames
    obtain ⟨cause, found⟩ := Option.isSome_iff_exists.1 blames
    obtain ⟨failed, blocks, _⟩ := Option.bind_eq_some_iff.1 found
    obtain ⟨isFailure, isAncestor⟩ := CompiledPipeline.mem_of_blocked_by blocks
    have hasFailed := (RunProgress.mem_failures_iff distinct).1 isFailure
    exact ⟨failed, plans.is_ancestor_iff.1 isAncestor, hasFailed⟩
  · rintro ⟨failed, reaches, hasFailed⟩
    have member := (RunProgress.mem_failures_iff distinct).2 hasFailed
    have isBlocked : (compiled.blockedBy? progress.failures id).isSome = true := by
      rw [CompiledPipeline.blocked_by_eq_find, List.find?_isSome]
      exact ⟨failed, member, plans.is_ancestor_iff.2 reaches⟩
    obtain ⟨first, blocks⟩ := Option.isSome_iff_exists.1 isBlocked
    have planned := simulates.failures_planned (CompiledPipeline.mem_of_blocked_by blocks).1
    obtain ⟨cause, _, position, _⟩ := CompiledPipeline.exists_is_at plans planned
    rw [blocks, Option.bind_some, position, Option.isSome_some]

/-- The report counts a step as skipped because of failures exactly when it blames one. -/
theorem skipped_by_failure_eq (plans : compiled.graph.Plans compiled.pipeline)
    (simulates : Simulates compiled state progress) (distinct : progress.recordedIds.Nodup)
    {step : Step} {log : List Dispatch}
    (settled : Settled compiled endings progress.resultOf log step) :
    (progress.resultOf step.id).any Terminal.isSkippedByFailure =
      (compiled.blame? progress.failures step.id).isSome := by
  rw [Bool.eq_iff_iff, blame_iff plans simulates distinct]
  by_cases blocked : compiled.pipeline.HasFailedAncestor progress.resultOf step.id
  · obtain ⟨failed, _, _, recorded⟩ := settled.blocked blocked
    rw [recorded, Option.any_some, Terminal.skipped_by_failure_of_dependency]
    exact iff_of_true rfl blocked
  · apply iff_of_false _ blocked
    cases holds : compiled.conditionHolds
        (compiled.graph.outcomesSeenBy progress.resultOf step.id) step with
    | false =>
        rw [settled.conditionFalse blocked holds, Option.any_some,
          Terminal.not_skipped_by_failure_of_condition]
        exact Bool.false_ne_true
    | true =>
        rw [(settled.carriedOut blocked holds).1, Option.any_some, Terminal.isSkippedByFailure]
        simp [endings.result_not_skipped step.id]

theorem any_outcome (outcome : StepOutcome) (id : String) :
    (progress.resultOf id).any (fun result => result.outcome = outcome) =
      decide (progress.outcomes id = some outcome) := by
  rw [RunProgress.outcomes]
  cases progress.resultOf id <;> simp

theorem listed_skips_eq {report : RunReport}
    (none : report.failedSteps = [] →
      (report.results.filter Terminal.isSkippedByFailure).map StepResult.stepId = []) :
    Terminal.listedSkips report =
      (report.results.filter Terminal.isSkippedByFailure).map StepResult.stepId := by
  rw [Terminal.listedSkips]
  split
  · rename_i empty
    exact (none (List.isEmpty_iff.1 empty)).symm
  · rfl

theorem agrees_of_simulates (plans : compiled.graph.Plans compiled.pipeline)
    (isOf : program.IsOf compiled) (simulates : Simulates compiled state progress)
    (ids : progress.recordedIds.Perm compiled.graph.planIds) {report : RunReport}
    (results : report.results = compiled.graph.planIds.filterMap progress.resultOf)
    {log : List Dispatch} (settled : ∀ step ∈ compiled.pipeline.steps,
      Settled compiled endings progress.resultOf log step) :
    (program.finish state).Agrees report := by
  have distinct : progress.recordedIds.Nodup := ids.nodup_iff.2 plans.plan_ids_nodup
  have named : ∀ id result, progress.resultOf id = some result → result.stepId = id :=
    fun _ _ found => (RunProgress.mem_of_result_of found).2
  have stepIds := program_ids plans isOf
  -- What was recorded in the order of the run is listed in the order of the plan.
  have recorded : progress.recorded.Perm report.results := by
    rw [results, ← RunProgress.filter_map_recorded distinct]
    exact ids.filterMap progress.resultOf
  have listed : ∀ outcome, program.idsWhere state.outcomes (fun recorded =>
      recorded = some outcome) = report.idsWith outcome := by
    intro outcome
    rw [simulates.outcomes, ScheduledProgram.ids_where stepIds, RunReport.idsWith, results]
    exact (ids_of_results named fun id _ => any_outcome outcome id).symm
  have skips : program.idsWhere state.blockedBy Option.isSome =
      (report.results.filter Terminal.isSkippedByFailure).map StepResult.stepId := by
    rw [simulates.blockedBy, ScheduledProgram.ids_where stepIds, results]
    refine (ids_of_results named fun id planned => ?_).symm
    obtain ⟨step, declared, rfl⟩ := List.mem_map.1 (plans.mem_plan_ids.1 planned)
    exact skipped_by_failure_eq plans simulates distinct (settled step declared)
  constructor
  case outcomes =>
    rw [results]
    refine simulates.outcomes.trans (map_filter_map_of_all fun id planned => ?_).symm
    obtain ⟨result, found, _⟩ := RunProgress.result_of_recorded (ids.mem_iff.2 planned)
    exact ⟨result, found, by rw [RunProgress.outcomes, found, Option.map_some]⟩
  case verdicts => exact simulates.verdicts ▸ recorded.map StepResult.verdict
  case succeeded => exact listed .success
  case failed => exact listed .failed
  case skipped => exact listed .skipped
  case skippedByFailure =>
    refine skips.trans (listed_skips_eq fun noneFailed => ?_).symm
    -- Without a failure no step is to blame, and the report does not list any either.
    have failures : progress.failures.Perm report.failedSteps :=
      (recorded.filter StepResult.isFailed).map StepResult.stepId
    rw [noneFailed, List.perm_nil] at failures
    rw [← skips, simulates.blockedBy, ScheduledProgram.ids_where stepIds, failures,
      List.filter_eq_nil_iff]
    exact fun id _ => Bool.false_ne_true
  case exitCode =>
    rw [RunReport.exit_code_eq, ProgramRun.exitCode]
    exact congrArg (fun failed : List String => if failed.isEmpty then 0 else 1)
      (listed .failed)

end Ended

end Whole

/-- A generated program, read from its text and run with any limit, agrees with the report of
an uninterrupted run in which the steps of each wave finish in order. -/
theorem generated_program_schedules_like_run {pipeline : Pipeline} {compiled : CompiledPipeline}
    {program : GeneratedProgram} (compiles : CompiledPipeline.compile pipeline = .ok compiled)
    (generated : compiled.generate = .ok program) {endings : StepEndings}
    {runs : ProgramStep → Option StepRun} (endAlike : EndAlike pipeline runs endings)
    {State : Type} {surroundings : Surroundings State}
    (uninterrupted : surroundings.IsUninterrupted) (inOrder : surroundings.LeavesInOrder endings)
    (limit : Option Nat) (identifier : RunIdentifier) (state : State) :
    let report := (compiled.run surroundings identifier state).report
    ∃ scheduled run, program.main?.bind ScheduledProgram.read = some scheduled ∧
      scheduled.run limit runs = some run ∧
      scheduled.tables.steps.map ProgramStep.id = report.results.map StepResult.stepId ∧
      run.Agrees report ∧
      ∀ terminal : Terminal, terminal.report report = "\n".intercalate
        (report.results.flatMap terminal.result ++ terminal.totals report
          :: terminal.failureLines run.failed run.skippedByFailure) := by
  intro report
  have plans := CompiledPipeline.compile_plans compiles
  obtain ⟨scheduled, read, isOf⟩ := CompiledPipeline.read_is_of compiles generated
  have samePipeline := (CompiledPipeline.compile_parts compiles).1
  subst samePipeline
  obtain ⟨next, ran, simulates, ids⟩ :=
    program_ends plans isOf endAlike uninterrupted inOrder limit identifier state
  have recorded := CompiledPipeline.result_of_ended surroundings identifier state
    fun id member => ids.mem_iff.1 member
  have settled := CompiledPipeline.run_settled plans uninterrupted
    (Surroundings.leaves_results_of_in_order inOrder) identifier state
  have results := compiled.report_results surroundings identifier state
  rw [recorded] at settled results
  have agrees := agrees_of_simulates plans isOf simulates ids results settled
  refine ⟨scheduled, _, read, ran, ?_, agrees, ?_⟩
  · -- Every planned step was recorded, so a report has as many results as the table has steps.
    have named : report.results.map StepResult.stepId = compiled.graph.planIds.map id := by
      rw [results]
      exact map_filter_map_of_all fun id planned =>
        RunProgress.result_of_recorded (ids.mem_iff.2 planned)
    rw [named, List.map_id, program_ids plans isOf]
  · intro terminal
    rw [agrees.failed, agrees.skippedByFailure]
    exact terminal.report_lines report

def lintRunFails (step : ProgramStep) : Option StepRun :=
  some ⟨if step.id = "lint" then .failed else .success, "", "", none, .zero⟩

theorem release_pipeline_scheduled :
    ∃ compiled program scheduled run,
      CompiledPipeline.compile releasePipeline = .ok compiled ∧
      compiled.generate = .ok program ∧
      program.main?.bind ScheduledProgram.read = some scheduled ∧
      scheduled.run (some 1) lintRunFails = some run ∧
      run.failed = ["lint"] ∧ run.skipped = ["announce", "publish"] ∧
      run.skippedByFailure = ["publish"] ∧
      run.Agrees (compiled.run (inOrder lintFails) .zero ()).report := by
  have accepted : ∃ compiled, CompiledPipeline.compile releasePipeline = .ok compiled ∧
      (ProgramTables.of compiled).values.isOk = true ∧
      (compiled.run (inOrder lintFails) .zero ()).report.failedSteps = ["lint"] ∧
      (compiled.run (inOrder lintFails) .zero ()).report.skippedSteps = ["announce", "publish"] ∧
      Terminal.listedSkips (compiled.run (inOrder lintFails) .zero ()).report = ["publish"] :=
    ⟨_, by cbv, by decide +kernel, by cbv, by cbv, by cbv⟩
  obtain ⟨compiled, compiles, canWrite, failed, skipped, listed⟩ := accepted
  obtain ⟨values, written⟩ := ProgramTables.values_of_is_ok canWrite
  have generated := ProgramTables.program_of_values written
  have endAlike : EndAlike releasePipeline lintRunFails lintFails := fun _ _ => rfl
  have ordered : (inOrder lintFails).LeavesInOrder lintFails :=
    fun dispatches _ => complete_results_of_all lintFails dispatches
  obtain ⟨scheduled, run, read, ran, _, agrees, _⟩ := generated_program_schedules_like_run compiles
    generated endAlike (fun _ _ => rfl) ordered (some 1) .zero ()
  exact ⟨compiled, _, scheduled, run, compiles, generated, read, ran, agrees.failed.trans failed,
    agrees.skipped.trans skipped, agrees.skippedByFailure.trans listed, agrees⟩

end PipelineWaves
