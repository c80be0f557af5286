import PipelineWaves.Proofs.Run.Comparison

/-!
# Finishing order

The steps of a wave may finish in any order, and steps whose tasks break down may be
counted among them at any point. None of that shows in a report: two runs whose
steps end alike record the same results, up to times and up to which of several
failed ancestors a skipped step names, and they carry out the same steps.

The proof goes through the plan from its start. What is decided when a step has its
turn, whether an ancestor failed and what its condition sees, depends on the outcomes
of the steps that the plan lists before it, and these are the same in both runs.
-/

set_option autoImplicit false

namespace PipelineWaves

def StepResult.untimed (result : StepResult) : StepResult :=
  { result with duration := .zero, startedAt := none }

/-- Two results of one step that differ at most in times and, for a step skipped after
failures, in which of the failed steps `names` its detail gives. -/
structure StepResult.Agrees (names : String → Prop) (left right : StepResult) : Prop where
  stepId : left.stepId = right.stepId
  outcome : left.outcome = right.outcome
  stdout : left.stdout = right.stdout
  stderr : left.stderr = right.stderr
  exitCode : left.exitCode = right.exitCode
  detail : left.detail = right.detail ∨ left.outcome = .skipped ∧
    ∃ failed other, names failed ∧ names other ∧
      left.detail = some (SkipReason.dependencyFailed failed) ∧
      right.detail = some (SkipReason.dependencyFailed other)

/-- Two reports that differ at most in identifiers, times and blame. -/
structure RunReport.Agrees (pipeline : Pipeline) (left right : RunReport) : Prop where
  pipelineName : left.pipelineName = right.pipelineName
  results : List.Forall₂ (fun first second =>
    StepResult.Agrees (fun failed => pipeline.IsAncestor failed first.stepId ∧
      HasFailed left.result? failed ∧ HasFailed right.result? failed) first second)
    left.results right.results
  status : left.status = right.status
  exitCode : left.exitCode = right.exitCode

theorem StepResult.agrees_of_untimed {names : String → Prop} {left right : StepResult}
    (same : left.untimed = right.untimed) : left.Agrees names right := by
  have fields := StepResult.mk.inj same
  exact
    { stepId := fields.1
      outcome := fields.2.1
      stdout := fields.2.2.1
      stderr := fields.2.2.2.1
      exitCode := fields.2.2.2.2.2.2.1
      detail := Or.inl fields.2.2.2.2.2.2.2 }

namespace SameTurn

variable {pipeline : Pipeline} {first second : String → Option StepResult}
  {firstEndings secondEndings : StepEndings} {id : String}

theorem agrees (same : SameTurn pipeline first second firstEndings secondEndings id)
    (endTheSame : (firstEndings.result id).untimed = (secondEndings.result id).untimed)
    (sameFailures : ∀ failed, pipeline.IsAncestor failed id →
      (HasFailed first failed ↔ HasFailed second failed)) :
    ∃ left right, first id = some left ∧ second id = some right ∧
      left.Agrees (fun failed => pipeline.IsAncestor failed left.stepId ∧
        HasFailed first failed ∧ HasFailed second failed) right := by
  cases same with
  | blocked failed other inFirst inSecond recorded alsoRecorded =>
      refine ⟨_, _, recorded, alsoRecorded, rfl, rfl, rfl, rfl, rfl, Or.inr ⟨rfl, ?_⟩⟩
      refine ⟨failed, other, ⟨inFirst.1, inFirst.2, ?_⟩, ⟨inSecond.1, ?_, inSecond.2⟩, rfl, rfl⟩
      · exact (sameFailures failed inFirst.1).1 inFirst.2
      · exact (sameFailures other inSecond.1).2 inSecond.2
  | conditionFalse recorded alsoRecorded =>
      exact ⟨_, _, recorded, alsoRecorded, StepResult.agrees_of_untimed rfl⟩
  | carriedOut recorded alsoRecorded =>
      exact ⟨_, _, recorded, alsoRecorded, StepResult.agrees_of_untimed endTheSame⟩

end SameTurn

section Plan

variable {compiled : CompiledPipeline} {firstEndings secondEndings : StepEndings}
  {first second : String → Option StepResult} {firstLog secondLog : List Dispatch}

theorem same_turn_of_before (plans : compiled.graph.Plans compiled.pipeline) {step : Step}
    (settled : Settled compiled firstEndings first firstLog step)
    (otherSettled : Settled compiled secondEndings second secondLog step)
    (before : ∀ other ∈ compiled.graph.planIds.takeWhile (fun planned => planned ≠ step.id),
      outcomeIn first other = outcomeIn second other) :
    SameTurn compiled.pipeline first second firstEndings secondEndings step.id := by
  apply settled.same_turn otherSettled rfl
  · apply has_failed_ancestor_of_outcomes
    exact fun ancestor reaches => before ancestor (plans.ancestor_planned_before reaches).1
  · rw [compiled.graph.outcomes_seen_of_outcomes before]

theorem outcomes_eq_of_settled (plans : compiled.graph.Plans compiled.pipeline)
    (endAlike : ∀ id, (firstEndings.result id).outcome = (secondEndings.result id).outcome)
    (settled : ∀ step ∈ compiled.pipeline.steps, Settled compiled firstEndings first firstLog step)
    (otherSettled : ∀ step ∈ compiled.pipeline.steps,
      Settled compiled secondEndings second secondLog step) :
    ∀ id ∈ compiled.graph.planIds, outcomeIn first id = outcomeIn second id := by
  have prefixes : ∀ done later, compiled.graph.planIds = done ++ later →
      ∀ id ∈ done, outcomeIn first id = outcomeIn second id := by
    intro done
    induction done using List.reverseRecOn with
    | nil => simp
    | append_singleton done last induction =>
        intro later split id member
        rw [List.append_assoc, List.singleton_append] at split
        have earlier := induction (last :: later) split
        rcases List.mem_append.1 member with inside | isLast
        · exact earlier id inside
        · cases List.mem_singleton.1 isLast
          have planned : last ∈ compiled.graph.planIds := by simp [split]
          obtain ⟨step, isStep, rfl⟩ := List.mem_map.1 (plans.mem_plan_ids.1 planned)
          rw [← plans.take_while_split split] at earlier
          exact (same_turn_of_before plans (settled step isStep) (otherSettled step isStep)
            earlier).outcome_eq (endAlike step.id)
  exact prefixes compiled.graph.planIds [] (List.append_nil _).symm

end Plan

theorem forall₂_filter_map {Item Left Right : Type} {relation : Left → Right → Prop}
    {left : Item → Option Left} {right : Item → Option Right} {items : List Item}
    (related : ∀ item ∈ items, ∃ first second, left item = some first ∧
      right item = some second ∧ relation first second) :
    List.Forall₂ relation (items.filterMap left) (items.filterMap right) := by
  induction items with
  | nil => exact .nil
  | cons item rest induction =>
      obtain ⟨first, second, inLeft, inRight, holds⟩ := related item List.mem_cons_self
      rw [List.filterMap_cons, List.filterMap_cons, inLeft, inRight]
      exact .cons holds (induction fun other member => related other (List.mem_cons_of_mem _ member))

/-- The order in which the steps of a wave finish does not show in the report of an
uninterrupted run, nor in what is carried out. -/
theorem finishing_order_keeps_report {pipeline : Pipeline} {compiled : CompiledPipeline}
    (compiles : CompiledPipeline.compile pipeline = .ok compiled)
    {firstEndings secondEndings : StepEndings}
    (endAlike : ∀ id, (firstEndings.result id).untimed = (secondEndings.result id).untimed)
    {First Second : Type} {first : Surroundings First} {second : Surroundings Second}
    (uninterrupted : first.IsUninterrupted) (alsoUninterrupted : second.IsUninterrupted)
    (leaves : first.LeavesResults firstEndings) (alsoLeaves : second.LeavesResults secondEndings)
    (identifier other : RunIdentifier) (start : First) (otherStart : Second) :
    RunReport.Agrees pipeline (compiled.run first identifier start).report
        (compiled.run second other otherStart).report ∧
      ∀ dispatch, dispatch ∈ compiled.dispatched first identifier start ↔
        dispatch ∈ compiled.dispatched second other otherStart := by
  have plans := CompiledPipeline.compile_plans compiles
  have samePipeline := (CompiledPipeline.compile_parts compiles).1
  subst samePipeline
  have settled := CompiledPipeline.run_settled plans uninterrupted leaves identifier start
  have alsoSettled := CompiledPipeline.run_settled plans alsoUninterrupted alsoLeaves other
    otherStart
  have sameEnds : ∀ id, (firstEndings.result id).outcome = (secondEndings.result id).outcome := by
    intro id
    have same := congrArg StepResult.outcome (endAlike id)
    exact same
  have outcomes := outcomes_eq_of_settled plans sameEnds settled alsoSettled
  have sameFailures : ∀ id, ∀ failed, compiled.pipeline.IsAncestor failed id →
      (HasFailed (compiled.run first identifier start).report.result? failed ↔
        HasFailed (compiled.run second other otherStart).report.result? failed) := by
    intro id failed reaches
    have planned := List.takeWhile_subset _ (plans.ancestor_planned_before reaches).1
    rw [has_failed_iff, has_failed_iff, outcomes failed planned]
  have sameSuccess := CompiledPipeline.report_success_congr (fun _ => Iff.rfl) outcomes
  refine ⟨⟨rfl, ?_, ?_, ?_⟩, ?_⟩
  · rw [CompiledPipeline.report_results, CompiledPipeline.report_results]
    apply forall₂_filter_map
    intro id planned
    obtain ⟨step, member, rfl⟩ := List.mem_map.1 (plans.mem_plan_ids.1 planned)
    have turn := same_turn_of_before plans (settled step member) (alsoSettled step member)
      fun before earlier => outcomes before (List.takeWhile_subset _ earlier)
    exact turn.agrees (endAlike step.id) (sameFailures step.id)
  · rw [CompiledPipeline.report_status uninterrupted,
      CompiledPipeline.report_status alsoUninterrupted, sameSuccess]
  · rw [RunReport.exitCode, RunReport.exitCode, sameSuccess]
  · intro dispatch
    rw [CompiledPipeline.mem_dispatched_iff plans uninterrupted leaves,
      CompiledPipeline.mem_dispatched_iff plans alsoUninterrupted alsoLeaves]
    apply exists_congr
    intro step
    apply and_congr_right
    intro member
    have planned := plans.mem_plan_ids.2 (List.mem_map_of_mem member)
    rw [outcomes step.id planned]

/-- Fetching breaks down, linting fails and all else succeeds, each after `duration`. -/
def fetchBreaks (duration : Duration) : StepEndings where
  ending id :=
    if id = "fetch" then none
    else some { StepResult.skipped id "" with
      outcome := if id = "lint" then .failed else .success
      duration }
  named id result ended := by
    split at ended
    · cases ended
    · cases ended
      rfl
  decided id result ended := by
    split at ended
    · cases ended
    · cases ended
      by_cases isLint : id = "lint" <;> simp [isLint]

def inOrder (endings : StepEndings) : Surroundings Unit where
  isInterrupted _ _ := false
  perform dispatches _ := (dispatches.map fun dispatch => endings.result dispatch.step.id, ())
  now _ := ⟨0, 0⟩

theorem complete_results_of_all (endings : StepEndings) (dispatches : List Dispatch) :
    CompiledPipeline.completeResults dispatches
        (dispatches.map fun dispatch => endings.result dispatch.step.id) =
      dispatches.map fun dispatch => endings.result dispatch.step.id := by
  have noneLost : (dispatches.filter fun dispatch =>
      !(dispatches.map fun dispatch => endings.result dispatch.step.id).any
        fun result => result.stepId = dispatch.step.id) = [] := by
    rw [List.filter_eq_nil_iff]
    intro dispatch member
    have named := endings.result_step_id dispatch.step.id
    simpa using ⟨dispatch, member, named⟩
  rw [CompiledPipeline.completeResults, noneLost, List.map_nil, List.append_nil]

theorem release_pipeline_finishing_order :
    ∃ compiled, CompiledPipeline.compile releasePipeline = .ok compiled ∧
      let inTurn := inOrder (fetchBreaks .zero)
      let backwards := lastFirst (fetchBreaks ⟨3, 0⟩)
      let report := (compiled.run inTurn .zero ()).report
      let other := (compiled.run backwards .zero ()).report
      (report.result? "publish").bind StepResult.detail = some "dependency 'fetch' failed" ∧
      (other.result? "publish").bind StepResult.detail = some "dependency 'lint' failed" ∧
      RunReport.Agrees releasePipeline report other ∧
      ∀ dispatch, dispatch ∈ compiled.dispatched inTurn .zero () ↔
        dispatch ∈ compiled.dispatched backwards .zero () := by
  have accepted : ∃ compiled, CompiledPipeline.compile releasePipeline = .ok compiled ∧
      ((compiled.run (inOrder (fetchBreaks .zero)) .zero ()).report.result? "publish").bind
        StepResult.detail = some "dependency 'fetch' failed" ∧
      ((compiled.run (lastFirst (fetchBreaks ⟨3, 0⟩)) .zero ()).report.result? "publish").bind
        StepResult.detail = some "dependency 'lint' failed" :=
    ⟨_, by cbv, by cbv, by cbv⟩
  obtain ⟨compiled, compiles, blamesFetch, blamesLint⟩ := accepted
  refine ⟨compiled, compiles, blamesFetch, blamesLint, ?_⟩
  have endAlike : ∀ id, ((fetchBreaks .zero).result id).untimed =
      ((fetchBreaks ⟨3, 0⟩).result id).untimed := by
    intro id
    by_cases isFetch : id = "fetch" <;>
      simp [StepEndings.result, fetchBreaks, isFetch, StepResult.untimed]
  apply finishing_order_keeps_report compiles endAlike (fun _ _ => rfl) (fun _ _ => rfl)
  · exact fun dispatches _ => List.Perm.of_eq (complete_results_of_all _ dispatches)
  · exact Surroundings.leaves_results_of_carries_out fun _ _ => List.reverse_perm _

end PipelineWaves
