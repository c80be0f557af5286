import PipelineWaves.Proofs.Run.Cascade

/-!
# Comparing runs

What the results of an uninterrupted run depend on. The law of one step, `Settled`,
asks only for the outcomes of earlier steps: whether an ancestor failed, and what
the condition sees. Where two runs agree on these, the step is blocked in both, or
kept by its condition in both, or carried out in both. The status and the exit code
of a report depend only on whether some step failed.
-/

set_option autoImplicit false

namespace PipelineWaves

def outcomeIn (results : String → Option StepResult) (id : String) : Option StepOutcome :=
  (results id).map StepResult.outcome

theorem has_failed_iff {results : String → Option StepResult} {id : String} :
    HasFailed results id ↔ outcomeIn results id = some .failed := by
  simp [HasFailed, outcomeIn]

theorem outcome_in_some {results : String → Option StepResult} {id : String}
    {result : StepResult} (found : results id = some result) :
    outcomeIn results id = some result.outcome := by
  rw [outcomeIn, found, Option.map_some]

theorem has_failed_ancestor_of_outcomes {pipeline : Pipeline}
    {first second : String → Option StepResult} {id : String}
    (agree : ∀ ancestor, pipeline.IsAncestor ancestor id →
      outcomeIn first ancestor = outcomeIn second ancestor) :
    pipeline.HasFailedAncestor first id ↔ pipeline.HasFailedAncestor second id := by
  apply exists_congr
  intro ancestor
  apply and_congr_right
  intro reaches
  rw [has_failed_iff, has_failed_iff, agree ancestor reaches]

namespace Graph

/-- What a condition sees depends only on the outcomes of what the plan lists before it. -/
theorem outcomes_seen_of_outcomes {graph : Graph} {first second : String → Option StepResult}
    {id : String}
    (agree : ∀ other ∈ graph.planIds.takeWhile (fun planned => planned ≠ id),
      outcomeIn first other = outcomeIn second other) :
    graph.outcomesSeenBy first id = graph.outcomesSeenBy second id := by
  funext other
  by_cases before : other ∈ graph.planIds.takeWhile fun planned => planned ≠ id
  · have same := agree other before
    simp only [outcomeIn] at same
    rw [outcomesSeenBy, outcomesSeenBy]
    cases inFirst : first other with
    | none =>
        rw [inFirst, Option.map_none] at same
        rw [Option.map_eq_none_iff.1 same.symm]
    | some result =>
        rw [inFirst, Option.map_some] at same
        obtain ⟨counterpart, inSecond, sameOutcome⟩ := Option.map_eq_some_iff.1 same.symm
        simp only [inSecond, sameOutcome]
  · simp only [outcomesSeenBy, before, false_and, if_false]
    cases first other <;> cases second other <;> rfl

namespace Plans

variable {graph : Graph} {pipeline : Pipeline}

theorem ancestor_planned_before (plans : graph.Plans pipeline) {ancestor id : String}
    (reaches : pipeline.IsAncestor ancestor id) :
    ancestor ∈ graph.planIds.takeWhile (fun planned => planned ≠ id) ∧
      graph.waveOf ancestor ≠ graph.waveOf id := by
  refine ⟨?_, plans.wave_of_ne_of_ancestor reaches⟩
  obtain ⟨step, member, same⟩ := List.mem_map.1 (Pipeline.descendant_declared reaches)
  obtain ⟨before, wave, after, split, inside⟩ := plans.exists_wave member
  have inWave : id ∈ nodeIds wave := same ▸ mem_node_ids inside
  obtain ⟨earlier, later, splitWave⟩ := List.append_of_mem inWave
  have splitPlan : graph.planIds =
      (nodeIds before.flatten ++ earlier) ++ id :: (later ++ nodeIds after.flatten) := by
    rw [plan_ids_split split, List.flatten_cons, node_ids_append, splitWave]
    simp [List.append_assoc]
  rw [plans.take_while_split splitPlan]
  exact List.mem_append_left _ (plans.ancestor_before_wave split inWave reaches)

/-- A condition sees how every ancestor ended. -/
theorem outcomes_seen_of_ancestor (plans : graph.Plans pipeline)
    (results : String → Option StepResult) {ancestor id : String}
    (reaches : pipeline.IsAncestor ancestor id) :
    graph.outcomesSeenBy results id ancestor = outcomeIn results ancestor := by
  obtain ⟨before, otherWave⟩ := plans.ancestor_planned_before reaches
  rw [outcomesSeenBy, outcomeIn]
  cases results ancestor with
  | none => rfl
  | some result => exact if_pos ⟨before, Or.inl otherWave⟩

end Plans

end Graph

/-- What two runs record of one step that has the same turn in both. -/
inductive SameTurn (pipeline : Pipeline) (first second : String → Option StepResult)
    (firstEndings secondEndings : StepEndings) (id : String) : Prop
  | blocked (failed other : String)
      (inFirst : pipeline.IsAncestor failed id ∧ HasFailed first failed)
      (inSecond : pipeline.IsAncestor other id ∧ HasFailed second other)
      (recorded : first id = some (.skipped id (SkipReason.dependencyFailed failed)))
      (alsoRecorded : second id = some (.skipped id (SkipReason.dependencyFailed other)))
  | conditionFalse
      (recorded : first id = some (.skipped id SkipReason.conditionFalse))
      (alsoRecorded : second id = some (.skipped id SkipReason.conditionFalse))
  | carriedOut
      (recorded : first id = some (firstEndings.result id))
      (alsoRecorded : second id = some (secondEndings.result id))

namespace SameTurn

variable {pipeline : Pipeline} {first second : String → Option StepResult}
  {firstEndings secondEndings : StepEndings} {id : String}

theorem outcome_eq (same : SameTurn pipeline first second firstEndings secondEndings id)
    (endTheSame : (firstEndings.result id).outcome = (secondEndings.result id).outcome) :
    outcomeIn first id = outcomeIn second id := by
  cases same with
  | blocked failed other _ _ recorded alsoRecorded =>
      rw [outcome_in_some recorded, outcome_in_some alsoRecorded]
      rfl
  | conditionFalse recorded alsoRecorded =>
      rw [outcome_in_some recorded, outcome_in_some alsoRecorded]
  | carriedOut recorded alsoRecorded =>
      rw [outcome_in_some recorded, outcome_in_some alsoRecorded, endTheSame]

end SameTurn

/-- Where ancestors fail alike and the condition holds alike, a step has the same turn. -/
theorem Settled.same_turn {compiled other : CompiledPipeline}
    {firstEndings secondEndings : StepEndings} {first second : String → Option StepResult}
    {firstLog secondLog : List Dispatch} {step : Step}
    (settled : Settled compiled firstEndings first firstLog step)
    (otherSettled : Settled other secondEndings second secondLog step)
    (sameAncestors : other.pipeline.IsAncestor = compiled.pipeline.IsAncestor)
    (sameFailures : compiled.pipeline.HasFailedAncestor first step.id ↔
      compiled.pipeline.HasFailedAncestor second step.id)
    (sameCondition :
      compiled.conditionHolds (compiled.graph.outcomesSeenBy first step.id) step =
        other.conditionHolds (other.graph.outcomesSeenBy second step.id) step) :
    SameTurn compiled.pipeline first second firstEndings secondEndings step.id := by
  have otherFailures : other.pipeline.HasFailedAncestor second step.id ↔
      compiled.pipeline.HasFailedAncestor second step.id := by
    rw [Pipeline.HasFailedAncestor, sameAncestors, ← Pipeline.HasFailedAncestor]
  by_cases blocked : compiled.pipeline.HasFailedAncestor first step.id
  · obtain ⟨failed, reaches, hasFailed, recorded⟩ := settled.blocked blocked
    obtain ⟨blame, blameReaches, blameFailed, alsoRecorded⟩ :=
      otherSettled.blocked (otherFailures.2 (sameFailures.1 blocked))
    rw [sameAncestors] at blameReaches
    exact .blocked failed blame ⟨reaches, hasFailed⟩ ⟨blameReaches, blameFailed⟩ recorded
      alsoRecorded
  · have notBlocked : ¬other.pipeline.HasFailedAncestor second step.id :=
      fun inSecond => blocked (sameFailures.2 (otherFailures.1 inSecond))
    cases holds : compiled.conditionHolds (compiled.graph.outcomesSeenBy first step.id) step with
    | false =>
        exact .conditionFalse (settled.conditionFalse blocked holds)
          (otherSettled.conditionFalse notBlocked (sameCondition ▸ holds))
    | true =>
        exact .carriedOut (settled.carriedOut blocked holds).1
          (otherSettled.carriedOut notBlocked (sameCondition ▸ holds)).1

theorem map_filter_map_of_all {ids : List String} {results : String → Option StepResult}
    {Value : Type} {shown : StepResult → Value} {known : String → Value}
    (each : ∀ id ∈ ids, ∃ result, results id = some result ∧ shown result = known id) :
    (ids.filterMap results).map shown = ids.map known := by
  induction ids with
  | nil => rfl
  | cons id rest induction =>
      obtain ⟨⟨result, found, same⟩, later⟩ := List.forall_mem_cons.1 each
      rw [List.filterMap_cons, found, List.map_cons, List.map_cons, same, induction later]

namespace CompiledPipeline

variable {State : Type} {compiled : CompiledPipeline} {surroundings : Surroundings State}

theorem run_waves_uninterrupted (compiled : CompiledPipeline)
    (uninterrupted : surroundings.IsUninterrupted) (waves : List (List GraphNode)) (index : Nat)
    (progress : RunProgress) (state : State) :
    (compiled.runWaves surroundings index waves progress state).2.2 = false := by
  have whole := compiled.run_waves_append surroundings waves [] index progress state
    fun _ _ => uninterrupted _ _
  rw [List.append_nil] at whole
  rw [whole]
  rfl

theorem report_results (compiled : CompiledPipeline) (surroundings : Surroundings State)
    (identifier : RunIdentifier) (state : State) :
    (compiled.run surroundings identifier state).report.results =
      compiled.graph.planIds.filterMap
        (compiled.run surroundings identifier state).report.result? := by
  refine List.filterMap_congr fun id planned => ?_
  refine Eq.trans ?_ (find_planned_result _ compiled.graph.planIds id).symm
  rw [if_pos planned]

theorem outcome_of_unplanned (compiled : CompiledPipeline) (surroundings : Surroundings State)
    (identifier : RunIdentifier) (state : State) {id : String}
    (unplanned : id ∉ compiled.graph.planIds) :
    outcomeIn (compiled.run surroundings identifier state).report.result? id = none := by
  rw [outcomeIn, Option.map_eq_none_iff]
  refine Eq.trans (find_planned_result _ compiled.graph.planIds id) ?_
  rw [if_neg unplanned]

theorem report_status (uninterrupted : surroundings.IsUninterrupted)
    (identifier : RunIdentifier) (state : State) :
    (compiled.run surroundings identifier state).report.status =
      if (compiled.run surroundings identifier state).report.isSuccess then .completed
      else .failed := by
  have goesOn := compiled.run_waves_uninterrupted uninterrupted compiled.graph.waves 0
    ⟨[], [.runStarted identifier compiled.pipeline.name compiled.graph.planIds.length
      compiled.graph.waves.length]⟩ state
  simp only [run, RunReport.finish, RunReport.finalStatus, RunReport.isSuccess, goesOn]
  split <;> simp_all

theorem report_success_iff (compiled : CompiledPipeline) (surroundings : Surroundings State)
    (identifier : RunIdentifier) (state : State) :
    (compiled.run surroundings identifier state).report.isSuccess = true ↔
      ∀ id ∈ compiled.graph.planIds,
        outcomeIn (compiled.run surroundings identifier state).report.result? id ≠
          some .failed := by
  rw [RunReport.isSuccess, compiled.report_results]
  simp only [Bool.not_eq_true', List.any_eq_false, List.mem_filterMap, StepResult.isFailed,
    decide_eq_true_eq, forall_exists_index, and_imp, outcomeIn, ne_eq, Option.map_eq_some_iff,
    not_exists, not_and]
  constructor
  · exact fun noneFailed id planned result found => noneFailed result id planned found
  · exact fun noneFailed result id planned found => noneFailed id planned result found

theorem report_success_congr {Other : Type} {other : CompiledPipeline}
    {otherSurroundings : Surroundings Other} {identifier otherIdentifier : RunIdentifier}
    {state : State} {otherState : Other}
    (sameSteps : ∀ id, id ∈ compiled.graph.planIds ↔ id ∈ other.graph.planIds)
    (agree : ∀ id ∈ compiled.graph.planIds,
      outcomeIn (compiled.run surroundings identifier state).report.result? id =
        outcomeIn (other.run otherSurroundings otherIdentifier otherState).report.result? id) :
    (compiled.run surroundings identifier state).report.isSuccess =
      (other.run otherSurroundings otherIdentifier otherState).report.isSuccess := by
  rw [Bool.eq_iff_iff, report_success_iff, report_success_iff]
  constructor
  · exact fun noneFailed id planned =>
      agree id ((sameSteps id).2 planned) ▸ noneFailed id ((sameSteps id).2 planned)
  · exact fun noneFailed id planned => agree id planned ▸ noneFailed id ((sameSteps id).1 planned)

theorem run_settled (plans : compiled.graph.Plans compiled.pipeline) {endings : StepEndings}
    (uninterrupted : surroundings.IsUninterrupted) (leaves : surroundings.LeavesResults endings)
    (identifier : RunIdentifier) (state : State) :
    ∀ step ∈ compiled.pipeline.steps,
      Settled compiled endings (compiled.run surroundings identifier state).report.result?
        (compiled.dispatched surroundings identifier state) step := by
  intro step member
  obtain ⟨progress, done, report⟩ :=
    run_leaves_done plans uninterrupted leaves identifier state
  rw [report]
  apply done.settled step member
  rw [← Graph.Plans.plan_ids_eq_node_ids, plans.mem_plan_ids]
  exact List.mem_map_of_mem member

/-- What is dispatched are exactly the steps that end in any way but by a skip. -/
theorem mem_dispatched_iff (plans : compiled.graph.Plans compiled.pipeline)
    {endings : StepEndings} (uninterrupted : surroundings.IsUninterrupted)
    (leaves : surroundings.LeavesResults endings) (identifier : RunIdentifier) (state : State)
    {dispatch : Dispatch} :
    dispatch ∈ compiled.dispatched surroundings identifier state ↔
      ∃ step ∈ compiled.pipeline.steps,
        dispatch = ⟨step, compiled.pipeline.environmentOf step⟩ ∧
        outcomeIn (compiled.run surroundings identifier state).report.result? step.id ≠
          some .skipped := by
  obtain ⟨progress, done, report⟩ :=
    run_leaves_done plans uninterrupted leaves identifier state
  have settled := run_settled plans uninterrupted leaves identifier state
  rw [report] at settled ⊢
  have logged : ∀ step ∈ compiled.pipeline.steps,
      outcomeIn progress.resultOf step.id ≠ some .skipped →
        ⟨step, compiled.pipeline.environmentOf step⟩ ∈
          compiled.dispatched surroundings identifier state := by
    intro step member notSkipped
    by_cases blocked : compiled.pipeline.HasFailedAncestor progress.resultOf step.id
    · obtain ⟨_, _, _, skipped⟩ := (settled step member).blocked blocked
      exact absurd (outcome_in_some skipped) notSkipped
    · cases holds : compiled.conditionHolds
          (compiled.graph.outcomesSeenBy progress.resultOf step.id) step with
      | false =>
          have skipped := (settled step member).conditionFalse blocked holds
          exact absurd (outcome_in_some skipped) notSkipped
      | true => exact ((settled step member).carriedOut blocked holds).2
  constructor
  · intro member
    have recorded := done.dispatched dispatch member
    have notSkipped : outcomeIn progress.resultOf dispatch.step.id ≠ some .skipped := by
      rw [outcome_in_some recorded]
      exact fun same => endings.result_not_skipped _ (Option.some.inj same)
    have planned : dispatch.step.id ∈ compiled.graph.planIds := by
      rw [Graph.Plans.plan_ids_eq_node_ids, ← done.ids.mem_iff]
      exact done.once.subset (List.mem_map_of_mem member)
    obtain ⟨step, isStep, sameId⟩ := List.mem_map.1 (plans.mem_plan_ids.1 planned)
    refine ⟨step, isStep, ?_, sameId ▸ notSkipped⟩
    exact List.inj_on_of_nodup_map (done.dispatched_nodup plans) member
      (logged step isStep (sameId ▸ notSkipped)) sameId.symm
  · rintro ⟨step, isStep, rfl, notSkipped⟩
    exact logged step isStep notSkipped

end CompiledPipeline

end PipelineWaves
