import PipelineWaves.Proofs.Program.Scheduler
import PipelineWaves.Proofs.Run.Comparison

/-!
# Programs and runs

A generated program keeps step with a run of its pipeline. The run knows steps by their
ids and asks for failed ancestors when a step has its turn; the program knows them by
positions and marks the dependents of a step when it fails. `Simulates` relates the two
states: the same outcomes in the order of the plan, for each step the position of the
failed step that the run would blame, and the same verdicts in the same order. Each
operation of the program keeps it, and so do waves and whole runs.
-/

set_option autoImplicit false

namespace PipelineWaves

/-- What is known of a step that is settled: its outcome and, for a skip, the reason. -/
structure StepVerdict where
  id : String
  outcome : StepOutcome
  reason : Option String
deriving DecidableEq, Repr

def StepNotice.verdict : StepNotice → StepVerdict
  | .skipped id reason => ⟨id, .skipped, some reason⟩
  | .finished id run => ⟨id, run.outcome, none⟩

def StepResult.verdict (result : StepResult) : StepVerdict :=
  ⟨result.stepId, result.outcome, if result.outcome = .skipped then result.detail else none⟩

namespace CompiledPipeline

def position? (compiled : CompiledPipeline) (id : String) : Option Nat :=
  compiled.graph.planIds.findIdx? fun other => other = id

/-- The position of the failed step that a step is skipped for. -/
def blame? (compiled : CompiledPipeline) (failures : List String) (id : String) : Option Nat :=
  (compiled.blockedBy? failures id).bind compiled.position?

structure IsAt (compiled : CompiledPipeline) (index : Nat) (step : Step) : Prop where
  planned : compiled.graph.planIds[index]? = some step.id
  declared : step ∈ compiled.pipeline.steps

end CompiledPipeline

/-- The program has the tables of the pipeline, and its conditions have the values of the
conditions of the pipeline. -/
structure ScheduledProgram.IsOf (program : ScheduledProgram) (compiled : CompiledPipeline) :
    Prop where
  steps : program.tables.steps = (ProgramTables.of compiled).steps
  waves : program.tables.waves = (ProgramTables.of compiled).waves
  dependents : program.tables.dependents = (ProgramTables.of compiled).dependents
  condition : ∀ index step, compiled.IsAt index step → ∀ outcomes : Outcomes,
    program.conditionHolds? index (ProgramStep.of compiled.pipeline step).environment
        (compiled.graph.planIds.map outcomes) =
      some (compiled.conditionHolds outcomes step)

structure Simulates (compiled : CompiledPipeline) (state : SchedulerState)
    (progress : RunProgress) : Prop where
  outcomes : state.outcomes = compiled.graph.planIds.map progress.outcomes
  blockedBy : state.blockedBy = compiled.graph.planIds.map (compiled.blame? progress.failures)
  verdicts : state.notices.map StepNotice.verdict = progress.recorded.map StepResult.verdict
  planned : ∀ id ∈ progress.recordedIds, id ∈ compiled.graph.planIds

namespace CompiledPipeline

variable {compiled : CompiledPipeline}

theorem IsAt.entry {index : Nat} {step : Step} (isAt : compiled.IsAt index step)
    (plans : compiled.graph.Plans compiled.pipeline) :
    (ProgramTables.of compiled).steps[index]? = some (.of compiled.pipeline step) := by
  rw [ProgramTables.of, List.getElem?_map, plan_steps_at plans isAt.declared isAt.planned,
    Option.map_some]

theorem exists_is_at (plans : compiled.graph.Plans compiled.pipeline) {id : String}
    (planned : id ∈ compiled.graph.planIds) :
    ∃ index step, compiled.position? id = some index ∧ compiled.IsAt index step ∧ step.id = id := by
  obtain ⟨step, declared, rfl⟩ := List.mem_map.1 (plans.mem_plan_ids.1 planned)
  obtain ⟨index, position, atIndex⟩ := position_of_planned planned
  exact ⟨index, step, position, ⟨atIndex, declared⟩, rfl⟩

theorem IsAt.dependents {index : Nat} {step : Step} (isAt : compiled.IsAt index step)
    (plans : compiled.graph.Plans compiled.pipeline) :
    (ProgramTables.of compiled).dependents[index]? =
      some (ProgramTables.positionsAmong compiled.graph.planIds
        (compiled.graph.transitiveDependents step.id)) := by
  rw [table_dependents plans, List.getElem?_map, isAt.planned, Option.map_some]

theorem IsAt.position {index : Nat} {step : Step} (isAt : compiled.IsAt index step)
    (plans : compiled.graph.Plans compiled.pipeline) :
    compiled.position? step.id = some index :=
  (position_iff plans.plan_ids_nodup).2 isAt.planned

end CompiledPipeline

theorem ProgramTables.mem_positions_among {plan steps : List String} {index : Nat} {id : String}
    (atIndex : plan[index]? = some id) : index ∈ positionsAmong plan steps ↔ id ∈ steps := by
  simp [mem_positions_among_iff, atIndex]

theorem assign_eq {Item : Type} {items : List Item} {index : Nat} (below : index < items.length)
    (item : Item) : assign? items index item = some (items.set index item) := by
  rw [assign?, if_pos below]

theorem RunProgress.outcomes_record {progress : RunProgress} {result : StepResult}
    (fresh : result.stepId ∉ progress.recordedIds) :
    (progress.record result).outcomes =
      Function.update progress.outcomes result.stepId (some result.outcome) := by
  funext id
  rw [outcomes, resultOf, record, List.find?_append, Function.update_apply]
  by_cases same : id = result.stepId
  · rw [if_pos same, same, List.find?_singleton, if_pos (decide_eq_true rfl)]
    have absent := result_of_eq_none_iff.2 fresh
    rw [resultOf] at absent
    rw [absent, Option.none_or, Option.map_some]
  · rw [if_neg same, List.find?_singleton, if_neg (by simpa using Ne.symm same), Option.or_none]
    rfl

theorem RunProgress.failures_settle (progress : RunProgress) (result : StepResult) :
    (progress.settle result).failures =
      progress.failures ++ if result.outcome = .failed then [result.stepId] else [] := by
  rw [failures, recorded_settle, List.filter_append, List.map_append]
  by_cases failed : result.outcome = .failed <;> simp [StepResult.isFailed, failed, failures]

theorem map_update_plan {Value : Type} {plan : List String} (distinct : plan.Nodup)
    {index : Nat} {id : String} (atIndex : plan[index]? = some id) (known : String → Value)
    (value : Value) :
    plan.map (Function.update known id value) = (plan.map known).set index value := by
  obtain ⟨below, same⟩ := List.getElem?_eq_some_iff.1 atIndex
  have first : plan.idxOf id = index := by
    rw [← same]
    exact distinct.idxOf_getElem index below
  rw [distinct.map_update, if_pos (List.mem_of_getElem? atIndex), first]

namespace Simulates

variable {compiled : CompiledPipeline} {program : ScheduledProgram} {state : SchedulerState}
  {progress : RunProgress} {index : Nat} {step : Step}

theorem announce (simulates : Simulates compiled state progress) (event : RunEvent) :
    Simulates compiled state (progress.announce event) :=
  ⟨simulates.outcomes, simulates.blockedBy, simulates.verdicts, simulates.planned⟩

theorem assign_outcome (simulates : Simulates compiled state progress)
    (plans : compiled.graph.Plans compiled.pipeline) (isAt : compiled.IsAt index step)
    {result : StepResult} (named : result.stepId = step.id)
    (fresh : step.id ∉ progress.recordedIds) :
    assign? state.outcomes index (some result.outcome) =
      some (compiled.graph.planIds.map (progress.record result).outcomes) := by
  have below : index < state.outcomes.length := by
    rw [simulates.outcomes, List.length_map]
    exact (List.getElem?_eq_some_iff.1 isAt.planned).1
  rw [assign_eq below, simulates.outcomes, RunProgress.outcomes_record (named ▸ fresh), named,
    map_update_plan plans.plan_ids_nodup isAt.planned]

theorem planned_record (simulates : Simulates compiled state progress)
    (isAt : compiled.IsAt index step) {result : StepResult} (named : result.stepId = step.id) :
    ∀ id ∈ (progress.record result).recordedIds, id ∈ compiled.graph.planIds := by
  intro id member
  rw [RunProgress.recordedIds, RunProgress.record, List.map_append] at member
  rcases List.mem_append.1 member with earlier | own
  · exact simulates.planned id earlier
  · rw [List.map_singleton, List.mem_singleton, named] at own
    exact own ▸ List.mem_of_getElem? isAt.planned

theorem skip (simulates : Simulates compiled state progress)
    (plans : compiled.graph.Plans compiled.pipeline) (isAt : compiled.IsAt index step)
    (fresh : step.id ∉ progress.recordedIds) (reason : String) :
    ∃ next, state.skip index step.id reason = some next ∧
      Simulates compiled next (progress.skip step.id reason) := by
  let result : StepResult := .skipped step.id reason
  have assigned : assign? state.outcomes index (some .skipped) =
      some (compiled.graph.planIds.map (progress.skip step.id reason).outcomes) :=
    simulates.assign_outcome plans isAt (show result.stepId = step.id from rfl) fresh
  have sameFailures : (progress.skip step.id reason).failures = progress.failures := by
    apply RunProgress.failures_append_skipped (RunProgress.recorded_skip _ _ _)
    intro other member
    rw [List.mem_singleton.1 member]
    rfl
  refine ⟨_, by rw [SchedulerState.skip, assigned]; rfl, rfl, ?_, ?_, ?_⟩
  · rw [sameFailures]
    exact simulates.blockedBy
  · rw [RunProgress.recorded_skip, List.map_append, List.map_append, simulates.verdicts]
    rfl
  · exact simulates.planned_record isAt (show result.stepId = step.id from rfl)

theorem blame_at (simulates : Simulates compiled state progress)
    (isAt : compiled.IsAt index step) :
    state.blockedBy[index]? = some (compiled.blame? progress.failures step.id) := by
  rw [simulates.blockedBy, List.getElem?_map, isAt.planned, Option.map_some]

theorem failures_planned (simulates : Simulates compiled state progress) {failed : String}
    (member : failed ∈ progress.failures) : failed ∈ compiled.graph.planIds := by
  obtain ⟨result, kept, rfl⟩ := List.mem_map.1 member
  exact simulates.planned _ (List.mem_map_of_mem (List.mem_filter.1 kept).1)

/-- The program decides about a step as the run does, and gives the same reason for a skip. -/
theorem resolve_eq (simulates : Simulates compiled state progress)
    (plans : compiled.graph.Plans compiled.pipeline) (isOf : program.IsOf compiled)
    (isAt : compiled.IsAt index step) :
    program.resolve state index =
      match compiled.resolve progress step with
      | .blocked failed =>
          (state.skip index step.id (SkipReason.dependencyFailed failed)).map (·, false)
      | .conditionFalse => (state.skip index step.id SkipReason.conditionFalse).map (·, false)
      | .dispatched => some (state, true) := by
  have entry := isOf.steps ▸ isAt.entry plans
  have blame := simulates.blame_at isAt
  rw [CompiledPipeline.resolve, ScheduledProgram.resolve, entry]
  cases blocks : compiled.blockedBy? progress.failures step.id with
  | some failed =>
      have planned := simulates.failures_planned (CompiledPipeline.mem_of_blocked_by blocks).1
      obtain ⟨cause, culprit, position, atCause, rfl⟩ :=
        CompiledPipeline.exists_is_at plans planned
      have causeEntry := isOf.steps ▸ atCause.entry plans
      rw [CompiledPipeline.blame?, blocks, Option.bind_some, position] at blame
      simp only [Option.bind_eq_bind, Option.bind_some, blame, causeEntry]
      exact Option.map_eq_bind.symm
  | none =>
      rw [CompiledPipeline.blame?, blocks, Option.bind_none] at blame
      have condition := isOf.condition index step isAt progress.outcomes
      rw [← simulates.outcomes] at condition
      simp only [Option.bind_eq_bind, Option.bind_some, blame, condition]
      cases compiled.conditionHolds progress.outcomes step with
      | false => exact Option.map_eq_bind.symm
      | true => rfl

theorem resolve_wave (plans : compiled.graph.Plans compiled.pipeline)
    (isOf : program.IsOf compiled) {indices : List Nat} {steps : List Step}
    (each : List.Forall₂ compiled.IsAt indices steps) (simulates : Simulates compiled state progress)
    (distinct : (progress.recordedIds ++ steps.map Step.id).Nodup) :
    ∃ next runnable, program.resolveWave state indices = some (next, runnable) ∧
      Simulates compiled next (compiled.resolveWave progress steps).1 ∧
      List.Forall₂ (fun index dispatch => compiled.IsAt index dispatch.step) runnable
        (compiled.resolveWave progress steps).2 := by
  induction each generalizing state progress with
  | nil => exact ⟨state, [], rfl, simulates, .nil⟩
  | @cons index step indices steps isAt later induction =>
      have fresh : step.id ∉ progress.recordedIds := by
        intro recorded
        exact (List.nodup_append.1 distinct).2.2 _ recorded _ List.mem_cons_self rfl
      -- A skipped step is recorded before the next step of the wave is resolved.
      have skipping : ∀ reason, ∃ skipped next runnable,
          state.skip index step.id reason = some skipped ∧
          program.resolveWave skipped indices = some (next, runnable) ∧
          Simulates compiled next
            (compiled.resolveWave (progress.skip step.id reason) steps).1 ∧
          List.Forall₂ (fun index dispatch => compiled.IsAt index dispatch.step) runnable
            (compiled.resolveWave (progress.skip step.id reason) steps).2 := by
        intro reason
        obtain ⟨skipped, isSkipped, after⟩ := simulates.skip plans isAt fresh reason
        have distinctAfter : ((progress.skip step.id reason).recordedIds
            ++ steps.map Step.id).Nodup := by
          simpa [RunProgress.recordedIds, StepResult.skipped] using distinct
        obtain ⟨next, runnable, resolved⟩ := induction after distinctAfter
        exact ⟨skipped, next, runnable, isSkipped, resolved⟩
      have resolution := simulates.resolve_eq plans isOf isAt
      simp only [ScheduledProgram.resolveWave, CompiledPipeline.resolveWave]
      cases resolved : compiled.resolve progress step with
      | blocked failed =>
          obtain ⟨skipped, next, runnable, isSkipped, rest, after⟩ :=
            skipping (SkipReason.dependencyFailed failed)
          rw [resolution, resolved]
          simp only [isSkipped, Option.map_some, Option.bind_eq_bind, Option.bind_some, rest]
          exact ⟨next, runnable, rfl, after⟩
      | conditionFalse =>
          obtain ⟨skipped, next, runnable, isSkipped, rest, after⟩ :=
            skipping SkipReason.conditionFalse
          rw [resolution, resolved]
          simp only [isSkipped, Option.map_some, Option.bind_eq_bind, Option.bind_some, rest]
          exact ⟨next, runnable, rfl, after⟩
      | dispatched =>
          have distinctAfter : ((progress.announce (.stepStarted step.id)).recordedIds
              ++ steps.map Step.id).Nodup := by
            exact distinct.sublist ((List.sublist_cons_self _ _).append_left _)
          obtain ⟨next, runnable, rest, after, dispatched⟩ :=
            induction (simulates.announce (.stepStarted step.id)) distinctAfter
          rw [resolution, resolved]
          simp only [Option.bind_eq_bind, Option.bind_some, rest]
          exact ⟨next, index :: runnable, rfl, after, .cons isAt dispatched⟩

end Simulates

/-- The dependents are blocked: each by the step that was blamed first, if there is one. -/
def Blocks (cause : Nat) (dependents : List Nat) (before after : List (Option Nat)) : Prop :=
  ∀ index, after[index]? = before[index]?.map fun blamed =>
    if index ∈ dependents then blamed.or (some cause) else blamed

namespace Blocks

variable {cause : Nat} {before between after : List (Option Nat)}

theorem refl (cause : Nat) (blockedBy : List (Option Nat)) : Blocks cause [] blockedBy blockedBy := by
  intro index
  simp

theorem below {dependents : List Nat} (blocks : Blocks cause dependents before after) {index : Nat}
    (inside : index < before.length) : index < after.length := by
  have found := blocks index
  rw [List.getElem?_eq_getElem inside, Option.map_some] at found
  exact (List.getElem?_eq_some_iff.1 found).1

theorem trans {first rest : List Nat} (front : Blocks cause first before between)
    (back : Blocks cause rest between after) : Blocks cause (first ++ rest) before after := by
  intro index
  rw [back index, front index, Option.map_map]
  apply congrArg (Option.map · before[index]?)
  funext blamed
  simp only [Function.comp_apply, List.mem_append]
  by_cases inFirst : index ∈ first <;> by_cases inRest : index ∈ rest
  · cases blamed <;> simp [inFirst, inRest]
  · simp [inFirst, inRest]
  · simp [inFirst, inRest]
  · simp [inFirst, inRest]

end Blocks

namespace ScheduledProgram

theorem block_one (cause : Nat) {dependent : Nat} {blockedBy : List (Option Nat)}
    (below : dependent < blockedBy.length) :
    ∃ after, block cause blockedBy dependent = some after ∧
      Blocks cause [dependent] blockedBy after := by
  have found := List.getElem?_eq_getElem below
  rw [block, found]
  cases blamed : blockedBy[dependent] with
  | some earlier =>
      refine ⟨blockedBy, rfl, fun index => ?_⟩
      by_cases same : index = dependent
      · subst same
        rw [found, blamed]
        simp
      · simp [same]
  | none =>
      refine ⟨_, assign_eq below _, fun index => ?_⟩
      by_cases same : index = dependent
      · subst same
        rw [List.getElem?_set_self below, found, blamed]
        simp
      · rw [List.getElem?_set_ne (Ne.symm same)]
        simp [same]

theorem block_all (cause : Nat) {dependents : List Nat} {blockedBy : List (Option Nat)}
    (inRange : ∀ dependent ∈ dependents, dependent < blockedBy.length) :
    ∃ after, dependents.foldlM (block cause) blockedBy = some after ∧
      Blocks cause dependents blockedBy after := by
  induction dependents generalizing blockedBy with
  | nil => exact ⟨blockedBy, rfl, Blocks.refl cause blockedBy⟩
  | cons dependent rest induction =>
      obtain ⟨below, later⟩ := List.forall_mem_cons.1 inRange
      obtain ⟨between, isBlocked, first⟩ := block_one cause below
      obtain ⟨after, blocked, others⟩ :=
        induction fun other member => first.below (later other member)
      refine ⟨after, ?_, first.trans others⟩
      rw [List.foldlM_cons, isBlocked]
      exact blocked

end ScheduledProgram

/-- After a failure, the descendants of the failed step blame it unless they blame another. -/
theorem CompiledPipeline.blame_append {compiled : CompiledPipeline}
    {failures : List String} (planned : ∀ failed ∈ failures, failed ∈ compiled.graph.planIds)
    (plans : compiled.graph.Plans compiled.pipeline) {failed : String} {index : Nat}
    (position : compiled.position? failed = some index) (id : String) :
    compiled.blame? (failures ++ [failed]) id =
      if id ∈ compiled.graph.transitiveDependents failed then
        (compiled.blame? failures id).or (some index)
      else compiled.blame? failures id := by
  have cascades : compiled.blockedBy? (failures ++ [failed]) id =
      if id ∈ compiled.graph.transitiveDependents failed then
        (compiled.blockedBy? failures id).or (some failed)
      else compiled.blockedBy? failures id := by
    rw [blockedBy?, cascade, List.foldl_append]
    exact get?_block_dependents _ _ failed id
  rw [blame?, blame?, cascades]
  cases blocks : compiled.blockedBy? failures id with
  | none => split <;> simp [position]
  | some earlier =>
      obtain ⟨cause, _, atCause, _⟩ :=
        exists_is_at plans (planned earlier (mem_of_blocked_by blocks).1)
      split <;> simp [atCause]

namespace Simulates

variable {compiled : CompiledPipeline} {program : ScheduledProgram} {state : SchedulerState}
  {progress : RunProgress} {index : Nat} {step : Step}

theorem block_dependents (simulates : Simulates compiled state progress)
    (plans : compiled.graph.Plans compiled.pipeline) (isOf : program.IsOf compiled)
    (isAt : compiled.IsAt index step) {run : StepRun} {result : StepResult}
    (named : result.stepId = step.id) (endsAlike : run.outcome = result.outcome) :
    program.blockDependents index run state.blockedBy =
      some (compiled.graph.planIds.map (compiled.blame? (progress.settle result).failures)) := by
  rw [ScheduledProgram.blockDependents, endsAlike, RunProgress.failures_settle, named]
  by_cases failed : result.outcome = .failed
  · have dependents := isOf.dependents ▸ isAt.dependents plans
    have inRange : ∀ dependent ∈ ProgramTables.positionsAmong compiled.graph.planIds
        (compiled.graph.transitiveDependents step.id), dependent < state.blockedBy.length := by
      intro dependent member
      rw [simulates.blockedBy, List.length_map]
      exact List.mem_range.1 (List.mem_filter.1 member).1
    obtain ⟨after, blocked, atEach⟩ := ScheduledProgram.block_all index inRange
    rw [if_pos failed, if_pos failed, dependents]
    -- Position by position: a dependent is marked just where the step there is a descendant.
    refine blocked.trans (congrArg some (List.ext_getElem? fun other => ?_))
    rw [atEach other, simulates.blockedBy, List.getElem?_map, List.getElem?_map]
    cases atOther : compiled.graph.planIds[other]? with
    | none => rfl
    | some id =>
        have blame := CompiledPipeline.blame_append (fun _ => simulates.failures_planned) plans
          (isAt.position plans) id
        simp only [Option.map_some, blame, ProgramTables.mem_positions_among atOther]
  · rw [if_neg failed, if_neg failed, List.append_nil, simulates.blockedBy]

theorem settle (simulates : Simulates compiled state progress)
    (plans : compiled.graph.Plans compiled.pipeline) (isOf : program.IsOf compiled)
    (isAt : compiled.IsAt index step) (fresh : step.id ∉ progress.recordedIds) {run : StepRun}
    {result : StepResult} (named : result.stepId = step.id)
    (endsAlike : run.outcome = result.outcome) (carriedOut : result.outcome ≠ .skipped) :
    ∃ next, program.settle state index run = some next ∧
      Simulates compiled next (progress.settle result) := by
  have entry := isOf.steps ▸ isAt.entry plans
  have blocked := simulates.block_dependents plans isOf isAt named endsAlike
  have assigned := simulates.assign_outcome plans isAt named fresh
  rw [← endsAlike] at assigned
  have settled : program.settle state index run = some
      { outcomes := compiled.graph.planIds.map (progress.settle result).outcomes
        blockedBy :=
          compiled.graph.planIds.map (compiled.blame? (progress.settle result).failures)
        notices := state.notices ++ [.finished step.id run] } := by
    rw [ScheduledProgram.settle, entry]
    simp only [Option.bind_eq_bind, Option.bind_some, blocked, assigned]
    rfl
  refine ⟨_, settled, rfl, rfl, ?_, simulates.planned_record isAt named⟩
  have verdict : result.verdict = ⟨step.id, run.outcome, none⟩ := by
    rw [StepResult.verdict, if_neg carriedOut, named, endsAlike]
  rw [RunProgress.recorded_settle, List.map_append, List.map_append, simulates.verdicts,
    List.map_singleton, List.map_singleton, verdict]
  rfl

end Simulates

def EndAlike (pipeline : Pipeline) (runs : ProgramStep → Option StepRun)
    (endings : StepEndings) : Prop :=
  ∀ step ∈ pipeline.steps,
    (StepRun.joined (runs (.of pipeline step))).outcome = (endings.result step.id).outcome

namespace Simulates

variable {compiled : CompiledPipeline} {program : ScheduledProgram} {state : SchedulerState}
  {progress : RunProgress} {endings : StepEndings} {runs : ProgramStep → Option StepRun}

theorem settle_all (plans : compiled.graph.Plans compiled.pipeline)
    (isOf : program.IsOf compiled) (endAlike : EndAlike compiled.pipeline runs endings)
    {indices : List Nat} {dispatches : List Dispatch}
    (each : List.Forall₂ (fun index dispatch => compiled.IsAt index dispatch.step) indices
      dispatches)
    (simulates : Simulates compiled state progress)
    (distinct : (progress.recordedIds ++ dispatchIds dispatches).Nodup) :
    ∃ next, indices.foldlM (program.runStep runs) state = some next ∧
      Simulates compiled next
        ((dispatches.map fun dispatch => endings.result dispatch.step.id).foldl
          RunProgress.settle progress) := by
  induction each generalizing state progress with
  | nil => exact ⟨state, rfl, simulates⟩
  | @cons index dispatch indices dispatches isAt later induction =>
      have named := endings.result_step_id dispatch.step.id
      have fresh : dispatch.step.id ∉ progress.recordedIds := by
        intro recorded
        exact (List.nodup_append.1 distinct).2.2 _ recorded _ List.mem_cons_self rfl
      obtain ⟨settled, isSettled, after⟩ := simulates.settle plans isOf isAt fresh named
        (endAlike dispatch.step isAt.declared) (endings.result_not_skipped _)
      have distinctAfter : ((progress.settle (endings.result dispatch.step.id)).recordedIds
          ++ dispatchIds dispatches).Nodup := by
        simpa [RunProgress.recordedIds, dispatchIds, named] using distinct
      obtain ⟨next, rest, simulatesNext⟩ := induction after distinctAfter
      refine ⟨next, ?_, simulatesNext⟩
      rw [List.foldlM_cons, ScheduledProgram.runStep, isOf.steps, isAt.entry plans]
      simp only [Option.bind_eq_bind, Option.bind_some, isSettled]
      exact rest

variable {State : Type} {surroundings : Surroundings State}

/-- One wave of the program is one wave of the run, whatever the limit of the chunks. -/
theorem run_wave (plans : compiled.graph.Plans compiled.pipeline) (isOf : program.IsOf compiled)
    (endAlike : EndAlike compiled.pipeline runs endings)
    (inOrder : surroundings.LeavesInOrder endings) (limit : Option Nat) (number : Nat)
    (around : State) {indices : List Nat} {wave : List GraphNode}
    (each : List.Forall₂ compiled.IsAt indices (compiled.waveSteps wave))
    (simulates : Simulates compiled state progress)
    (distinct : (progress.recordedIds ++ (compiled.waveSteps wave).map Step.id).Nodup) :
    ∃ next, program.runWave limit runs state indices = some next ∧
      Simulates compiled next
        (compiled.runWave surroundings number wave progress around).1 := by
  let started := progress.announce (.waveStarted number (wave.map GraphNode.id))
  obtain ⟨resolved, runnable, isResolved, simulatesResolved, dispatched⟩ :=
    resolve_wave plans isOf each
      (simulates.announce (.waveStarted number (wave.map GraphNode.id))) distinct
  obtain ⟨skips, grows, _, permuted⟩ :=
    compiled.resolve_wave_splits started (compiled.waveSteps wave)
  have distinctAfter : ((compiled.resolveWave started (compiled.waveSteps wave)).1.recordedIds
      ++ dispatchIds (compiled.resolveWave started (compiled.waveSteps wave)).2).Nodup := by
    rw [RunProgress.recordedIds, grows, List.map_append, List.append_assoc]
    exact (permuted.append_left _).nodup_iff.2 distinct
  obtain ⟨next, settled, simulatesNext⟩ :=
    settle_all plans isOf endAlike dispatched simulatesResolved distinctAfter
  refine ⟨next, ?_, ?_⟩
  · rw [ScheduledProgram.runWave, isResolved]
    simp only [Option.bind_eq_bind, Option.bind_some]
    rw [program.run_chunks runs resolved]
    exact settled
  · simp only [CompiledPipeline.runWave, inOrder _ around]
    exact simulatesNext.announce _

end Simulates

namespace CompiledPipeline

variable {compiled : CompiledPipeline}

theorem wave_is_at (plans : compiled.graph.Plans compiled.pipeline)
    {done rest : List (List GraphNode)} {wave : List GraphNode}
    (split : compiled.graph.waves = done ++ wave :: rest) :
    List.Forall₂ compiled.IsAt
      ((List.range (nodeIds wave).length).map ((nodeIds done.flatten).length + ·))
      (compiled.waveSteps wave) := by
  have ids := wave_steps_ids_of_split plans split
  have plan : compiled.graph.planIds = nodeIds done.flatten
      ++ ((compiled.waveSteps wave).map Step.id ++ nodeIds rest.flatten) := by
    rw [Graph.Plans.plan_ids_split split, List.flatten_cons, node_ids_append, ids]
  rw [List.forall₂_iff_get, ← ids]
  refine ⟨by simp, fun index inPositions inSteps => ?_⟩
  rw [List.get_eq_getElem, List.get_eq_getElem, List.getElem_map, List.getElem_range]
  constructor
  · rw [plan, List.getElem?_append_right (Nat.le_add_right _ _), Nat.add_sub_cancel_left,
      List.getElem?_append_left (by simpa using inSteps), List.getElem?_map,
      List.getElem?_eq_getElem inSteps, Option.map_some]
  · obtain ⟨node, _, found⟩ := List.mem_filterMap.1 (List.getElem_mem inSteps)
    exact List.mem_of_find?_eq_some found

end CompiledPipeline

namespace Simulates

variable {compiled : CompiledPipeline} {program : ScheduledProgram} {state : SchedulerState}
  {progress : RunProgress} {endings : StepEndings} {runs : ProgramStep → Option StepRun}
  {State : Type} {surroundings : Surroundings State}

theorem start (compiled : CompiledPipeline) (events : List RunEvent) :
    Simulates compiled (.start compiled.graph.planIds.length) ⟨[], events⟩ := by
  constructor
  · exact List.map_const'.symm
  · exact List.map_const'.symm
  · rfl
  · simp [RunProgress.recordedIds]

/-- The waves that are left keep the program in step with the run. -/
theorem run_waves (plans : compiled.graph.Plans compiled.pipeline) (isOf : program.IsOf compiled)
    (endAlike : EndAlike compiled.pipeline runs endings)
    (uninterrupted : surroundings.IsUninterrupted)
    (inOrder : surroundings.LeavesInOrder endings) (limit : Option Nat) {done : List (List GraphNode)}
    (rest : List (List GraphNode)) (split : compiled.graph.waves = done ++ rest) (number : Nat)
    (around : State) (simulates : Simulates compiled state progress)
    (ids : progress.recordedIds.Perm (nodeIds done.flatten)) :
    ∃ next, (ProgramTables.wavePositions (nodeIds done.flatten).length
        (rest.map nodeIds)).foldlM (program.runWave limit runs) state = some next ∧
      Simulates compiled next
        (compiled.runWaves surroundings number rest progress around).1 ∧
      (compiled.runWaves surroundings number rest progress around).1.recordedIds.Perm
        compiled.graph.planIds := by
  induction rest generalizing done number state progress around with
  | nil =>
      rw [List.append_nil] at split
      rw [Graph.Plans.plan_ids_eq_node_ids, split]
      exact ⟨state, rfl, simulates, ids⟩
  | cons wave rest induction =>
      have waveIds := CompiledPipeline.wave_steps_ids_of_split plans split
      have doneIds : nodeIds (done ++ [wave]).flatten = nodeIds done.flatten ++ nodeIds wave := by
        simp
      have splitNext : compiled.graph.waves = (done ++ [wave]) ++ rest := by simp [split]
      -- No step of this wave is recorded yet, as the plan lists each step once.
      have distinct : (progress.recordedIds
          ++ (compiled.waveSteps wave).map Step.id).Nodup := by
        rw [waveIds]
        apply (ids.append_right _).nodup_iff.2
        exact doneIds ▸ plans.first_waves_nodup splitNext
      obtain ⟨between, ran, simulatesBetween⟩ := run_wave plans isOf endAlike inOrder limit number
        around (CompiledPipeline.wave_is_at plans split) simulates distinct
      have completes : Completes compiled endings (compiled.waveSteps wave)
          (progress.announce (.waveStarted number (wave.map GraphNode.id)))
          (compiled.runWave surroundings number wave progress around).1 :=
        CompiledPipeline.run_wave_completes (Surroundings.leaves_results_of_in_order inOrder)
          number wave progress around
      have idsBetween := completes.ids_perm.trans (ids.append_right _)
      rw [waveIds, ← doneIds] at idsBetween
      have later := induction splitNext (number + 1)
        (compiled.runWave surroundings number wave progress around).2 simulatesBetween idsBetween
      have goesOn : surroundings.isInterrupted progress.events around = false :=
        uninterrupted progress.events around
      simp only [CompiledPipeline.runWaves, goesOn, Bool.false_eq_true, if_false, List.map_cons,
        ProgramTables.wavePositions, List.foldlM_cons, ran, Option.bind_eq_bind, Option.bind_some]
      rw [doneIds, List.length_append] at later
      exact later

end Simulates

end PipelineWaves
