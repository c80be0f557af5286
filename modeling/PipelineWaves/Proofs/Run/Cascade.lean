import Mathlib.Data.List.Perm.Subperm
import PipelineWaves.Proofs.Graph.Plan
import PipelineWaves.Proofs.Run.Interruption
import PipelineWaves.Proofs.Run.Turn

/-!
# The failure cascade

What an uninterrupted run records of each step. Waves keep an invariant,
`WavesDone`: the steps of the waves so far have one result each, and the law of
one step holds of them all. At the end of a run it holds of every step.
-/

set_option autoImplicit false

namespace PipelineWaves

namespace Surroundings

variable {State : Type}

def IsUninterrupted (surroundings : Surroundings State) : Prop :=
  ∀ events state, surroundings.isInterrupted events state = false

/-- Dispatched steps end as `endings` says, in any order, which may depend on the state. -/
def CarriesOut (surroundings : Surroundings State) (endings : StepEndings) : Prop :=
  ∀ dispatches state,
    (surroundings.perform dispatches state).1.Perm (endings.finished dispatches)

/-- A wave is left with the result of each dispatched step, in any order. Unlike
`CarriesOut` this leaves open where the results of lost steps stand. -/
def LeavesResults (surroundings : Surroundings State) (endings : StepEndings) : Prop :=
  ∀ dispatches state,
    (CompiledPipeline.completeResults dispatches
      (surroundings.perform dispatches state).1).Perm
      (dispatches.map fun dispatch => endings.result dispatch.step.id)

theorem leaves_results_of_carries_out {surroundings : Surroundings State} {endings : StepEndings}
    (carries : surroundings.CarriesOut endings) : surroundings.LeavesResults endings :=
  fun dispatches state => complete_results_perm endings (carries dispatches state)

def LeavesInOrder (surroundings : Surroundings State) (endings : StepEndings) : Prop :=
  ∀ dispatches state,
    CompiledPipeline.completeResults dispatches (surroundings.perform dispatches state).1 =
      dispatches.map fun dispatch => endings.result dispatch.step.id

theorem leaves_results_of_in_order {surroundings : Surroundings State} {endings : StepEndings}
    (inOrder : surroundings.LeavesInOrder endings) : surroundings.LeavesResults endings :=
  fun dispatches state => List.Perm.of_eq (inOrder dispatches state)

/-- The same surroundings, which also keep a log of all that was dispatched. -/
def logged (surroundings : Surroundings State) : Surroundings (State × List Dispatch) where
  isInterrupted events state := surroundings.isInterrupted events state.1
  perform dispatches state :=
    ((surroundings.perform dispatches state.1).1,
      (surroundings.perform dispatches state.1).2, state.2 ++ dispatches)
  now state := surroundings.now state.1

end Surroundings

namespace CompiledPipeline

variable {State : Type}

/-- All that a run dispatches, in order. -/
def dispatched (compiled : CompiledPipeline) (surroundings : Surroundings State)
    (identifier : RunIdentifier) (state : State) : List Dispatch :=
  (compiled.run surroundings.logged identifier (state, [])).state.2

theorem run_wave_logged (compiled : CompiledPipeline) (surroundings : Surroundings State)
    (index : Nat) (wave : List GraphNode) (progress : RunProgress) (state : State)
    (log : List Dispatch) :
    let started := progress.announce (.waveStarted index (wave.map GraphNode.id))
    let resolved := compiled.resolveWave started (compiled.waveSteps wave)
    let plain := compiled.runWave surroundings index wave progress state
    compiled.runWave surroundings.logged index wave progress (state, log) =
      (plain.1, plain.2, log ++ resolved.2) := rfl

/-- Keeping a log changes nothing else. -/
theorem run_waves_logged (compiled : CompiledPipeline) (surroundings : Surroundings State)
    (waves : List (List GraphNode)) (index : Nat) (progress : RunProgress) (state : State)
    (log : List Dispatch) :
    let plain := compiled.runWaves surroundings index waves progress state
    ∃ more, compiled.runWaves surroundings.logged index waves progress (state, log) =
      (plain.1, (plain.2.1, more), plain.2.2) := by
  induction waves generalizing index progress state log with
  | nil => exact ⟨log, rfl⟩
  | cons wave rest induction =>
      intro plain
      by_cases stops : surroundings.isInterrupted progress.events state = true
      · refine ⟨log, ?_⟩
        simp [plain, runWaves, Surroundings.logged, stops]
      · have goesOn : surroundings.isInterrupted progress.events state = false := by
          simpa using stops
        obtain ⟨more, same⟩ := induction (index + 1)
          (compiled.runWave surroundings index wave progress state).1
          (compiled.runWave surroundings index wave progress state).2
          (log ++ (compiled.resolveWave
            (progress.announce (.waveStarted index (wave.map GraphNode.id)))
            (compiled.waveSteps wave)).2)
        refine ⟨more, ?_⟩
        have loggedGoesOn :
            surroundings.logged.isInterrupted progress.events (state, log) = false := goesOn
        simp only [plain, runWaves, goesOn, loggedGoesOn, Bool.false_eq_true, if_false,
          compiled.run_wave_logged]
        exact same

end CompiledPipeline

/-- `after` adds to `start` the skips of `steps` and a result for each dispatch. -/
def Completes (compiled : CompiledPipeline) (endings : StepEndings) (steps : List Step)
    (start after : RunProgress) : Prop :=
  ∃ completed, after.recorded = (compiled.resolveWave start steps).1.recorded ++ completed ∧
    completed.Perm ((compiled.resolveWave start steps).2.map
      fun dispatch => endings.result dispatch.step.id)

namespace Completes

variable {compiled : CompiledPipeline} {endings : StepEndings} {steps : List Step}
  {start after : RunProgress}

theorem ids_perm (completes : Completes compiled endings steps start after) :
    after.recordedIds.Perm (start.recordedIds ++ steps.map Step.id) := by
  obtain ⟨completed, same, permuted⟩ := completes
  obtain ⟨skips, grows, _, split⟩ := compiled.resolve_wave_splits start steps
  have completedIds : (completed.map StepResult.stepId).Perm
      (dispatchIds (compiled.resolveWave start steps).2) := by
    have mapped := permuted.map StepResult.stepId
    simpa [endings.result_step_id, dispatchIds, Function.comp_def] using mapped
  rw [RunProgress.recordedIds, same, grows, List.append_assoc, List.map_append, List.map_append]
  exact ((completedIds.append_left _).trans split).append_left _

theorem turn_prefix (completes : Completes compiled endings steps start after)
    {before rest : List Step} (split : steps = before ++ rest) :
    (compiled.resolveWave start before).1.recorded <+: after.recorded := by
  obtain ⟨completed, same, _⟩ := completes
  obtain ⟨skips, grows, _⟩ :=
    compiled.resolve_wave_splits (compiled.resolveWave start before).1 rest
  rw [same, split, compiled.resolve_wave_append, grows, List.append_assoc]
  exact List.prefix_append _ _

theorem start_prefix (completes : Completes compiled endings steps start after) :
    start.recorded <+: after.recorded :=
  completes.turn_prefix (List.nil_append steps).symm

theorem result_of_dispatched (completes : Completes compiled endings steps start after)
    (distinct : after.recordedIds.Nodup) {dispatch : Dispatch}
    (member : dispatch ∈ (compiled.resolveWave start steps).2) :
    after.resultOf dispatch.step.id = some (endings.result dispatch.step.id) := by
  obtain ⟨completed, same, permuted⟩ := completes
  have present : endings.result dispatch.step.id ∈ after.recorded := by
    rw [same]
    exact List.mem_append_right _ (permuted.mem_iff.2 (List.mem_map_of_mem member))
  have found := RunProgress.result_of_mem distinct present
  rwa [endings.result_step_id] at found

theorem result_of_skipped (completes : Completes compiled endings steps start after)
    (distinct : after.recordedIds.Nodup) {id reason : String}
    (member : .skipped id reason ∈ (compiled.resolveWave start steps).1.recorded) :
    after.resultOf id = some (.skipped id reason) := by
  obtain ⟨completed, same, _⟩ := completes
  have present : .skipped id reason ∈ after.recorded := by
    rw [same]
    exact List.mem_append_left _ member
  exact RunProgress.result_of_mem distinct present

theorem is_turn (completes : Completes compiled endings steps start after)
    {done : List (List GraphNode)} {before rest : List Step}
    (startIds : start.recordedIds.Perm (nodeIds done.flatten))
    (distinct : after.recordedIds.Nodup) (split : steps = before ++ rest) :
    IsTurn endings done before start (compiled.resolveWave start before).1 after := by
  obtain ⟨skips, grows, skipped, permuted⟩ := compiled.resolve_wave_splits start before
  refine ⟨startIds, ⟨skips, grows, ?_⟩, completes.turn_prefix split, distinct, ?_⟩
  · intro result member
    have inBefore := permuted.mem_iff.1 (List.mem_append_left _ (List.mem_map_of_mem member))
    exact ⟨skipped result member, inBefore⟩
  · intro earlier member notRecorded
    rcases List.mem_append.1 (permuted.mem_iff.2 (List.mem_map_of_mem member)) with skip | started
    · apply absurd _ notRecorded
      rw [RunProgress.recordedIds, grows, List.map_append]
      exact List.mem_append_right _ skip
    · obtain ⟨dispatch, present, same⟩ := List.mem_map.1 started
      rw [← same]
      apply completes.result_of_dispatched distinct
      rw [split, compiled.resolve_wave_append]
      exact List.mem_append_left _ present

theorem settled (completes : Completes compiled endings steps start after)
    (plans : compiled.graph.Plans compiled.pipeline) {done rest : List (List GraphNode)}
    {wave : List GraphNode} {log : List Dispatch}
    (split : compiled.graph.waves = done ++ wave :: rest)
    (ids : steps.map Step.id = nodeIds wave)
    (startIds : start.recordedIds.Perm (nodeIds done.flatten))
    (distinct : after.recordedIds.Nodup) {step : Step} (member : step ∈ steps) :
    Settled compiled endings after.resultOf (log ++ (compiled.resolveWave start steps).2) step := by
  obtain ⟨before, later, splitSteps⟩ := List.append_of_mem member
  have splitWave : nodeIds wave = before.map Step.id ++ step.id :: later.map Step.id := by
    rw [← ids, splitSteps, List.map_append, List.map_cons]
  apply (completes.is_turn startIds distinct splitSteps).settled plans split splitWave
  have left := compiled.resolve_wave_at start before later step
  rw [← splitSteps] at left
  cases resolution : compiled.resolve (compiled.resolveWave start before).1 step with
  | blocked failed =>
      simp only [resolution] at left
      exact completes.result_of_skipped distinct left
  | conditionFalse =>
      simp only [resolution] at left
      exact completes.result_of_skipped distinct left
  | dispatched =>
      simp only [resolution] at left
      exact ⟨completes.result_of_dispatched distinct left, List.mem_append_right _ left⟩

end Completes

/-- What holds of the progress and of the dispatches after the waves `done`. -/
structure WavesDone (compiled : CompiledPipeline) (endings : StepEndings)
    (done : List (List GraphNode)) (progress : RunProgress) (log : List Dispatch) : Prop where
  ids : progress.recordedIds.Perm (nodeIds done.flatten)
  once : (dispatchIds log).Subperm progress.recordedIds
  dispatched : ∀ dispatch ∈ log,
    progress.resultOf dispatch.step.id = some (endings.result dispatch.step.id)
  settled : ∀ step ∈ compiled.pipeline.steps, step.id ∈ nodeIds done.flatten →
    Settled compiled endings progress.resultOf log step

namespace CompiledPipeline

variable {compiled : CompiledPipeline}

theorem wave_steps_ids (plans : compiled.graph.Plans compiled.pipeline) {wave : List GraphNode}
    (inside : ∀ node ∈ wave, node ∈ compiled.graph.waves.flatten) :
    (compiled.waveSteps wave).map Step.id = nodeIds wave := by
  induction wave with
  | nil => rfl
  | cons node rest induction =>
      obtain ⟨step, member, same⟩ := plans.step_of_node (inside node List.mem_cons_self)
      have sameId : step.id = node.id := congrArg GraphNode.id same
      have found : compiled.pipeline.step? node.id = some step :=
        sameId ▸ Pipeline.step?_of_mem plans.distinct member
      have later := induction fun other present =>
        inside other (List.mem_cons_of_mem node present)
      rw [waveSteps] at later ⊢
      rw [List.filterMap_cons, found]
      simp [later, sameId, nodeIds]

theorem wave_steps_ids_of_split (plans : compiled.graph.Plans compiled.pipeline)
    {done rest : List (List GraphNode)} {wave : List GraphNode}
    (split : compiled.graph.waves = done ++ wave :: rest) :
    (compiled.waveSteps wave).map Step.id = nodeIds wave := by
  apply wave_steps_ids plans
  intro node member
  exact List.mem_flatten.2 ⟨wave, by simp [split], member⟩

theorem mem_wave_steps (plans : compiled.graph.Plans compiled.pipeline) {wave : List GraphNode}
    {step : Step} (member : step ∈ compiled.pipeline.steps) (inWave : step.id ∈ nodeIds wave) :
    step ∈ compiled.waveSteps wave := by
  obtain ⟨node, inside, same⟩ := List.mem_map.1 inWave
  exact List.mem_filterMap.2 ⟨node, inside, same ▸ Pipeline.step?_of_mem plans.distinct member⟩

theorem run_wave_completes {State : Type} {surroundings : Surroundings State}
    {endings : StepEndings} (leaves : surroundings.LeavesResults endings) (index : Nat)
    (wave : List GraphNode) (progress : RunProgress) (state : State) :
    Completes compiled endings (compiled.waveSteps wave)
      (progress.announce (.waveStarted index (wave.map GraphNode.id)))
      (compiled.runWave surroundings index wave progress state).1 := by
  refine ⟨_, ?_, leaves _ state⟩
  simp [runWave, RunProgress.recorded_settle_all]

end CompiledPipeline

namespace WavesDone

variable {compiled : CompiledPipeline} {endings : StepEndings} {done rest : List (List GraphNode)}
  {wave : List GraphNode} {progress after : RunProgress} {log : List Dispatch}

theorem start (compiled : CompiledPipeline) (endings : StepEndings) (events : List RunEvent) :
    WavesDone compiled endings [] ⟨[], events⟩ [] := by
  constructor
  · exact List.Perm.refl _
  · exact List.Subperm.refl _
  · simp
  · simp

theorem announce (invariant : WavesDone compiled endings done progress log) (event : RunEvent) :
    WavesDone compiled endings done (progress.announce event) log :=
  ⟨invariant.ids, invariant.once, invariant.dispatched, invariant.settled⟩

theorem after_wave (plans : compiled.graph.Plans compiled.pipeline)
    (split : compiled.graph.waves = done ++ wave :: rest)
    (invariant : WavesDone compiled endings done progress log)
    (completes : Completes compiled endings (compiled.waveSteps wave) progress after) :
    WavesDone compiled endings (done ++ [wave]) after
      (log ++ (compiled.resolveWave progress (compiled.waveSteps wave)).2) := by
  have waveIds := CompiledPipeline.wave_steps_ids_of_split plans split
  have doneIds : nodeIds (done ++ [wave]).flatten = nodeIds done.flatten ++ nodeIds wave := by
    simp
  have ids : after.recordedIds.Perm (nodeIds (done ++ [wave]).flatten) := by
    have grown := completes.ids_perm
    rw [waveIds] at grown
    exact doneIds ▸ grown.trans (invariant.ids.append_right _)
  have distinct : after.recordedIds.Nodup := by
    have splitNext : compiled.graph.waves = (done ++ [wave]) ++ rest := by simp [split]
    exact ids.nodup_iff.2 (plans.first_waves_nodup splitNext)
  -- A wave only adds results, so the law of an earlier step carries over unchanged.
  have agree : ∀ known ∈ nodeIds done.flatten, after.resultOf known = progress.resultOf known :=
    fun known member =>
      RunProgress.result_of_prefix completes.start_prefix (invariant.ids.mem_iff.2 member)
  refine ⟨ids, ?_, ?_, ?_⟩
  · obtain ⟨skips, _, _, permuted⟩ :=
      compiled.resolve_wave_splits progress (compiled.waveSteps wave)
    have dispatchedHere := (List.sublist_append_right _ _).subperm.trans permuted.subperm
    rw [dispatch_ids_append]
    exact (invariant.once.append dispatchedHere).trans completes.ids_perm.symm.subperm
  · intro dispatch member
    rcases List.mem_append.1 member with earlier | here
    · have recorded := invariant.dispatched dispatch earlier
      obtain ⟨present, same⟩ := RunProgress.mem_of_result_of recorded
      have known : dispatch.step.id ∈ nodeIds done.flatten := by
        rw [← invariant.ids.mem_iff, ← same]
        exact List.mem_map_of_mem present
      exact (agree _ known).trans recorded
    · exact completes.result_of_dispatched distinct here
  · intro step member inDone
    rw [doneIds] at inDone
    rcases List.mem_append.1 inDone with earlier | here
    · exact settled_of_agree plans split earlier agree (invariant.settled step member earlier)
    · exact completes.settled plans split waveIds invariant.ids distinct
        (CompiledPipeline.mem_wave_steps plans member here)

theorem skipped_not_dispatched (invariant : WavesDone compiled endings done progress log)
    {id reason : String} (skipped : progress.resultOf id = some (.skipped id reason)) :
    id ∉ dispatchIds log := by
  intro logged
  obtain ⟨dispatch, present, same⟩ := List.mem_map.1 logged
  have carried := invariant.dispatched dispatch present
  rw [same, skipped] at carried
  exact endings.result_ne_skipped id reason (Option.some.inj carried).symm

/-- The invariant holds wherever a run stands that nothing has interrupted so far. -/
theorem after_waves {State : Type} {surroundings : Surroundings State}
    (plans : compiled.graph.Plans compiled.pipeline) (leaves : surroundings.LeavesResults endings)
    {ran : List (List GraphNode)} (index : Nat) (state : State)
    (split : compiled.graph.waves = (done ++ ran) ++ rest)
    (invariant : WavesDone compiled endings done progress log) :
    let reached := compiled.afterWaves surroundings.logged index ran progress (state, log)
    WavesDone compiled endings (done ++ ran) reached.1 reached.2.2 := by
  induction ran generalizing done index progress state log with
  | nil =>
      rw [List.append_nil]
      exact invariant
  | cons wave ran induction =>
      have splitHere : compiled.graph.waves = done ++ wave :: (ran ++ rest) := by
        rw [split, List.append_assoc, List.cons_append]
      have splitNext : compiled.graph.waves = ((done ++ [wave]) ++ ran) ++ rest := by
        simp [split]
      simp only [CompiledPipeline.afterWaves, compiled.run_wave_logged]
      rw [show done ++ wave :: ran = (done ++ [wave]) ++ ran by simp]
      apply induction _ _ splitNext
      exact (invariant.announce _).after_wave plans splitHere
        (compiled.run_wave_completes leaves index wave progress state)

theorem run {State : Type} {surroundings : Surroundings State}
    (plans : compiled.graph.Plans compiled.pipeline)
    (uninterrupted : surroundings.IsUninterrupted) (leaves : surroundings.LeavesResults endings)
    (index : Nat) (state : State) (split : compiled.graph.waves = done ++ rest)
    (invariant : WavesDone compiled endings done progress log) :
    let ended := compiled.runWaves surroundings.logged index rest progress (state, log)
    WavesDone compiled endings compiled.graph.waves ended.1 ended.2.1.2 := by
  have whole := compiled.run_waves_append surroundings.logged rest [] index progress (state, log)
    fun _ _ => uninterrupted _ _
  rw [List.append_nil] at whole
  rw [whole, split]
  exact invariant.after_waves plans leaves index state (split.trans (List.append_nil _).symm)

end WavesDone

theorem find_planned_result (progress : RunProgress) (ids : List String) (id : String) :
    (ids.filterMap progress.resultOf).find? (fun result => result.stepId = id) =
      if id ∈ ids then progress.resultOf id else none := by
  induction ids with
  | nil => rfl
  | cons first rest induction =>
      by_cases same : first = id
      · subst same
        cases found : progress.resultOf first with
        | none => simp [found, induction]
        | some result =>
            have sameId := (RunProgress.mem_of_result_of found).2
            simp [found, sameId]
      · have different : id ≠ first := fun equal => same equal.symm
        cases found : progress.resultOf first with
        | none => simp [found, induction, different]
        | some result =>
            have sameId := (RunProgress.mem_of_result_of found).2
            simp [found, sameId, same, induction, different]

theorem filter_dispatched {log : List Dispatch} (distinct : (dispatchIds log).Nodup)
    {dispatch : Dispatch} (member : dispatch ∈ log) :
    log.filter (fun other => other.step.id = dispatch.step.id) = [dispatch] := by
  induction log with
  | nil => cases member
  | cons first rest induction =>
      rw [dispatchIds, List.map_cons, List.nodup_cons] at distinct
      rcases List.mem_cons.1 member with same | later
      · subst same
        have noOther : rest.filter (fun other => other.step.id = dispatch.step.id) = [] := by
          rw [List.filter_eq_nil_iff]
          intro other present
          simpa using fun same : other.step.id = dispatch.step.id =>
            distinct.1 (same ▸ List.mem_map_of_mem present)
        simp [noOther]
      · have different : first.step.id ≠ dispatch.step.id :=
          fun same => distinct.1 (same ▸ List.mem_map_of_mem later)
        simp [different, induction distinct.2 later]

namespace CompiledPipeline

variable {State : Type} {compiled : CompiledPipeline}

def ended (compiled : CompiledPipeline) (surroundings : Surroundings State)
    (identifier : RunIdentifier) (state : State) : RunProgress :=
  let started : RunEvent := .runStarted identifier compiled.pipeline.name
    compiled.graph.planIds.length compiled.graph.waves.length
  (compiled.runWaves surroundings 0 compiled.graph.waves ⟨[], [started]⟩ state).1

/-- The report of a run gives what was recorded, if only planned steps were. -/
theorem result_of_ended (surroundings : Surroundings State) (identifier : RunIdentifier)
    (state : State) (planned : ∀ id ∈ (compiled.ended surroundings identifier state).recordedIds,
      id ∈ compiled.graph.planIds) :
    (compiled.run surroundings identifier state).report.result? =
      (compiled.ended surroundings identifier state).resultOf := by
  funext id
  refine (find_planned_result _ compiled.graph.planIds id).trans ?_
  by_cases inPlan : id ∈ compiled.graph.planIds
  · exact if_pos inPlan
  · rw [if_neg inPlan]
    exact (RunProgress.result_of_eq_none_iff.2 fun recorded => inPlan (planned id recorded)).symm

theorem run_leaves_done (plans : compiled.graph.Plans compiled.pipeline) {endings : StepEndings}
    {surroundings : Surroundings State} (uninterrupted : surroundings.IsUninterrupted)
    (leaves : surroundings.LeavesResults endings) (identifier : RunIdentifier) (state : State) :
    ∃ progress,
      WavesDone compiled endings compiled.graph.waves progress
        (compiled.dispatched surroundings identifier state) ∧
      (compiled.run surroundings identifier state).report.result? = progress.resultOf := by
  let started : RunEvent := .runStarted identifier compiled.pipeline.name
    compiled.graph.planIds.length compiled.graph.waves.length
  have done := WavesDone.run plans uninterrupted leaves 0 state (List.nil_append _).symm
    (WavesDone.start compiled endings [started])
  obtain ⟨more, same⟩ :=
    compiled.run_waves_logged surroundings compiled.graph.waves 0 ⟨[], [started]⟩ state []
  refine ⟨_, done, ?_⟩
  rw [same] at done ⊢
  apply result_of_ended
  intro id recorded
  rw [Graph.Plans.plan_ids_eq_node_ids]
  exact done.ids.mem_iff.1 recorded

theorem run_done (plans : compiled.graph.Plans compiled.pipeline) {endings : StepEndings}
    {surroundings : Surroundings State} (uninterrupted : surroundings.IsUninterrupted)
    (carries : surroundings.CarriesOut endings) (identifier : RunIdentifier) (state : State) :
    ∃ progress,
      WavesDone compiled endings compiled.graph.waves progress
        (compiled.dispatched surroundings identifier state) ∧
      (compiled.run surroundings identifier state).report.result? = progress.resultOf :=
  run_leaves_done plans uninterrupted (Surroundings.leaves_results_of_carries_out carries)
    identifier state

end CompiledPipeline

/-- The step has a condition, and it is false for the outcomes `seen`. -/
def Pipeline.ConditionFails (pipeline : Pipeline) (step : Step) (seen : Outcomes) : Prop :=
  ∃ source condition, step.condition = some source ∧ Condition.parse source = .ok condition ∧
    condition.evaluate (pipeline.environmentOf step) seen = false

theorem condition_holds_false_iff {pipeline : Pipeline} {compiled : CompiledPipeline}
    (compiles : CompiledPipeline.compile pipeline = .ok compiled) {step : Step}
    (member : step ∈ pipeline.steps) (seen : Outcomes) :
    compiled.conditionHolds seen step = false ↔ pipeline.ConditionFails step seen := by
  have samePipeline := (CompiledPipeline.compile_parts compiles).1
  have written : ∀ condition, compiled.condition? step.id = some condition ↔ _ :=
    fun condition => CompiledPipeline.condition?_eq_some_iff compiles member
  rw [CompiledPipeline.conditionHolds, samePipeline]
  cases has : compiled.condition? step.id with
  | none =>
      simp only [Bool.true_eq_false, false_iff]
      rintro ⟨source, condition, isWritten, parsed, _⟩
      rw [(written condition).2 ⟨source, isWritten, parsed⟩] at has
      cases has
  | some condition =>
      obtain ⟨source, isWritten, parsed⟩ := (written condition).1 has
      constructor
      · exact fun isFalse => ⟨source, condition, isWritten, parsed, isFalse⟩
      · rintro ⟨other, otherCondition, otherWritten, otherParsed, isFalse⟩
        rw [(written otherCondition).2 ⟨other, otherWritten, otherParsed⟩] at has
        exact Option.some.inj has ▸ isFalse

theorem condition_false_ne_dependency_failed (failed : String) :
    SkipReason.conditionFalse ≠ SkipReason.dependencyFailed failed := by
  intro same
  have heads := congrArg (fun reason : String => reason.toList.head?) same
  simp [SkipReason.conditionFalse, SkipReason.dependencyFailed, toString] at heads

/-- What a run does with `step`: `results` are its results and `log` is all it dispatched. -/
structure FollowsCascade (pipeline : Pipeline) (graph : Graph) (endings : StepEndings)
    (results : String → Option StepResult) (log : List Dispatch) (step : Step) : Prop where
  blocked : pipeline.HasFailedAncestor results step.id →
    step.id ∉ dispatchIds log ∧
      ∃ failed, pipeline.IsAncestor failed step.id ∧ HasFailed results failed ∧
        results step.id = some (.skipped step.id (SkipReason.dependencyFailed failed))
  onlyBlocked : ¬pipeline.HasFailedAncestor results step.id →
    ∀ failed, results step.id ≠ some (.skipped step.id (SkipReason.dependencyFailed failed))
  conditionFalse : ¬pipeline.HasFailedAncestor results step.id →
    (results step.id = some (.skipped step.id SkipReason.conditionFalse) ↔
      pipeline.ConditionFails step (graph.outcomesSeenBy results step.id))
  notCarriedOut : pipeline.ConditionFails step (graph.outcomesSeenBy results step.id) →
    step.id ∉ dispatchIds log
  carriedOut : ¬pipeline.HasFailedAncestor results step.id →
    ¬pipeline.ConditionFails step (graph.outcomesSeenBy results step.id) →
      log.filter (fun dispatch => dispatch.step.id = step.id) =
          [⟨step, pipeline.environmentOf step⟩] ∧
        results step.id = some (endings.result step.id)
  /-- A step of the same wave is no ancestor, and of its outcome at most a skip is seen. -/
  siblings : ∀ sibling, graph.waveOf sibling = graph.waveOf step.id →
    ¬pipeline.IsAncestor sibling step.id ∧
      ∀ outcome, graph.outcomesSeenBy results step.id sibling = some outcome → outcome = .skipped

theorem seen_sibling_skipped {graph : Graph} {results : String → Option StepResult}
    {id sibling : String} {outcome : StepOutcome} (same : graph.waveOf sibling = graph.waveOf id)
    (seen : graph.outcomesSeenBy results id sibling = some outcome) : outcome = .skipped := by
  rw [Graph.outcomesSeenBy] at seen
  cases found : results sibling with
  | none => simp [found] at seen
  | some result =>
      simp only [found, same, ne_eq, not_true_eq_false, false_or] at seen
      split at seen
      · rename_i visible
        exact (Option.some.inj seen).symm.trans visible.2
      · cases seen

theorem WavesDone.dispatched_nodup {compiled : CompiledPipeline}
    (plans : compiled.graph.Plans compiled.pipeline) {endings : StepEndings}
    {progress : RunProgress} {log : List Dispatch}
    (done : WavesDone compiled endings compiled.graph.waves progress log) :
    (dispatchIds log).Nodup := by
  obtain ⟨ids, permuted, sublist⟩ := done.once
  have distinct := plans.plan_ids_nodup
  rw [Graph.Plans.plan_ids_eq_node_ids, ← done.ids.nodup_iff] at distinct
  exact permuted.nodup_iff.1 (sublist.nodup distinct)

theorem WavesDone.follows_cascade {pipeline : Pipeline} {compiled : CompiledPipeline}
    (compiles : CompiledPipeline.compile pipeline = .ok compiled) {endings : StepEndings}
    {progress : RunProgress} {log : List Dispatch}
    (done : WavesDone compiled endings compiled.graph.waves progress log) {step : Step}
    (member : step ∈ pipeline.steps) :
    FollowsCascade pipeline compiled.graph endings progress.resultOf log step := by
  have plans := CompiledPipeline.compile_plans compiles
  have fails := condition_holds_false_iff compiles member
    (compiled.graph.outcomesSeenBy progress.resultOf step.id)
  have samePipeline := (CompiledPipeline.compile_parts compiles).1
  subst samePipeline
  have planned : step.id ∈ nodeIds compiled.graph.waves.flatten := by
    rw [← Graph.Plans.plan_ids_eq_node_ids, plans.mem_plan_ids]
    exact List.mem_map_of_mem member
  have settled := done.settled step member planned
  have distinct := done.dispatched_nodup plans
  have carriedOut (notBlocked : ¬compiled.pipeline.HasFailedAncestor progress.resultOf step.id)
      (holds : ¬compiled.pipeline.ConditionFails step
        (compiled.graph.outcomesSeenBy progress.resultOf step.id)) :=
    settled.carriedOut notBlocked (by simpa [← fails] using holds)
  constructor
  case blocked =>
    intro blocked
    obtain ⟨failed, reaches, hasFailed, skipped⟩ := settled.blocked blocked
    exact ⟨done.skipped_not_dispatched skipped, failed, reaches, hasFailed, skipped⟩
  case onlyBlocked =>
    intro notBlocked failed skipped
    by_cases isFalse : compiled.pipeline.ConditionFails step
        (compiled.graph.outcomesSeenBy progress.resultOf step.id)
    · rw [settled.conditionFalse notBlocked (fails.2 isFalse)] at skipped
      have sameDetail := congrArg StepResult.detail (Option.some.inj skipped)
      exact condition_false_ne_dependency_failed failed (Option.some.inj sameDetail)
    · rw [(carriedOut notBlocked isFalse).1] at skipped
      exact endings.result_ne_skipped _ _ (Option.some.inj skipped)
  case conditionFalse =>
    intro notBlocked
    constructor
    · intro skipped
      by_contra holds
      rw [(carriedOut notBlocked holds).1] at skipped
      exact endings.result_ne_skipped _ _ (Option.some.inj skipped)
    · exact fun isFalse => settled.conditionFalse notBlocked (fails.2 isFalse)
  case notCarriedOut =>
    intro isFalse
    by_cases blocked : compiled.pipeline.HasFailedAncestor progress.resultOf step.id
    · obtain ⟨_, _, _, skipped⟩ := settled.blocked blocked
      exact done.skipped_not_dispatched skipped
    · exact done.skipped_not_dispatched (settled.conditionFalse blocked (fails.2 isFalse))
  case carriedOut =>
    intro notBlocked holds
    obtain ⟨recorded, inLog⟩ := carriedOut notBlocked holds
    exact ⟨filter_dispatched distinct inLog, recorded⟩
  case siblings =>
    exact fun sibling same => ⟨fun reaches => plans.wave_of_ne_of_ancestor reaches same,
      fun outcome seen => seen_sibling_skipped same seen⟩

/-- In an uninterrupted run every step follows the cascade of failures, whatever the
order in which the dispatched steps of a wave finish. -/
theorem run_follows_cascade {State : Type} (pipeline : Pipeline) (compiled : CompiledPipeline)
    (compiles : CompiledPipeline.compile pipeline = .ok compiled) (endings : StepEndings)
    (surroundings : Surroundings State) (uninterrupted : surroundings.IsUninterrupted)
    (carries : surroundings.CarriesOut endings) (identifier : RunIdentifier) (state : State) :
    ∀ step ∈ pipeline.steps,
      FollowsCascade pipeline compiled.graph endings
        (compiled.run surroundings identifier state).report.result?
        (compiled.dispatched surroundings identifier state) step := by
  intro step member
  have plans : compiled.graph.Plans compiled.pipeline :=
    (CompiledPipeline.compile_parts compiles).1.symm ▸ CompiledPipeline.compile_plans compiles
  obtain ⟨progress, done, report⟩ :=
    CompiledPipeline.run_done plans uninterrupted carries identifier state
  rw [report]
  exact done.follows_cascade compiles member

def lintFails : StepEndings where
  ending id :=
    some { StepResult.skipped id "" with outcome := if id = "lint" then .failed else .success }
  named id result ended := by
    cases ended
    rfl
  decided id result ended := by
    cases ended
    by_cases isLint : id = "lint" <;> simp [isLint]

/-- Of each wave the last dispatched step finishes first. -/
def lastFirst (endings : StepEndings) : Surroundings Unit where
  isInterrupted _ _ := false
  perform dispatches _ := ((endings.finished dispatches).reverse, ())
  now _ := ⟨0, 0⟩

theorem release_pipeline_cascade :
    ∃ compiled, CompiledPipeline.compile releasePipeline = .ok compiled ∧
      dispatchIds (compiled.dispatched (lastFirst lintFails) .zero ()) =
        ["fetch", "lint", "package", "archive"] ∧
      ∀ step ∈ releasePipeline.steps,
        FollowsCascade releasePipeline compiled.graph lintFails
          (compiled.run (lastFirst lintFails) .zero ()).report.result?
          (compiled.dispatched (lastFirst lintFails) .zero ()) step := by
  have accepted : ∃ compiled, CompiledPipeline.compile releasePipeline = .ok compiled ∧
      dispatchIds (compiled.dispatched (lastFirst lintFails) .zero ()) =
        ["fetch", "lint", "package", "archive"] :=
    ⟨_, by cbv, by cbv⟩
  obtain ⟨compiled, compiles, log⟩ := accepted
  refine ⟨compiled, compiles, log, ?_⟩
  exact run_follows_cascade releasePipeline compiled compiles lintFails (lastFirst lintFails)
    (fun _ _ => rfl) (fun _ _ => List.reverse_perm _) .zero ()

end PipelineWaves
