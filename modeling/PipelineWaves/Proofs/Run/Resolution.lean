import Mathlib.Data.List.Nodup
import Mathlib.Data.List.Perm.Basic
import PipelineWaves.Run.Engine

/-!
# Resolving and finishing a wave

What one wave adds to the recorded results. Resolving its steps records the
skipped ones in order of declaration and hands out the others, and then every
dispatched step has a result of its own or counts as aborted. Results are only
ever appended, so what was recorded before a wave is found after it.
-/

set_option autoImplicit false

namespace PipelineWaves

namespace RunProgress

def recordedIds (progress : RunProgress) : List String :=
  progress.recorded.map StepResult.stepId

@[simp]
theorem recorded_announce (progress : RunProgress) (event : RunEvent) :
    (progress.announce event).recorded = progress.recorded := rfl

@[simp]
theorem recorded_skip (progress : RunProgress) (id reason : String) :
    (progress.skip id reason).recorded = progress.recorded ++ [.skipped id reason] := rfl

@[simp]
theorem recorded_settle (progress : RunProgress) (result : StepResult) :
    (progress.settle result).recorded = progress.recorded ++ [result] := rfl

theorem recorded_settle_all (progress : RunProgress) (results : List StepResult) :
    (results.foldl settle progress).recorded = progress.recorded ++ results := by
  induction results generalizing progress with
  | nil => simp
  | cons result rest induction => simp [induction]

theorem result_of_eq_none_iff {progress : RunProgress} {id : String} :
    progress.resultOf id = none ↔ id ∉ progress.recordedIds := by
  simp [resultOf, recordedIds]

theorem result_of_mem {progress : RunProgress} {result : StepResult}
    (distinct : progress.recordedIds.Nodup) (member : result ∈ progress.recorded) :
    progress.resultOf result.stepId = some result := by
  have present : progress.resultOf result.stepId ≠ none := by
    rw [ne_eq, result_of_eq_none_iff, not_not]
    exact List.mem_map_of_mem member
  obtain ⟨found, foundEq⟩ := Option.ne_none_iff_exists'.1 present
  have sameId : found.stepId = result.stepId := by simpa using List.find?_some foundEq
  have same := List.inj_on_of_nodup_map distinct (List.mem_of_find?_eq_some foundEq) member sameId
  rw [foundEq, same]

theorem mem_of_result_of {progress : RunProgress} {id : String} {result : StepResult}
    (found : progress.resultOf id = some result) :
    result ∈ progress.recorded ∧ result.stepId = id :=
  ⟨List.mem_of_find?_eq_some found, by simpa using List.find?_some found⟩

theorem result_of_recorded {progress : RunProgress} {id : String}
    (recorded : id ∈ progress.recordedIds) :
    ∃ result, progress.resultOf id = some result ∧ result.stepId = id := by
  obtain ⟨result, found⟩ := Option.ne_none_iff_exists'.1
    fun absent => result_of_eq_none_iff.1 absent recorded
  exact ⟨result, found, (mem_of_result_of found).2⟩

theorem filter_map_recorded {progress : RunProgress}
    (distinct : progress.recordedIds.Nodup) :
    progress.recordedIds.filterMap progress.resultOf = progress.recorded := by
  have each : ∀ result ∈ progress.recorded,
      progress.resultOf result.stepId = some result :=
    fun result member => result_of_mem distinct member
  rw [recordedIds, List.filterMap_map]
  exact (List.filterMap_congr each).trans List.filterMap_some

/-- A result that was recorded once is found ever after. -/
theorem result_of_prefix {earlier later : RunProgress} {id : String}
    (grows : earlier.recorded <+: later.recorded) (present : id ∈ earlier.recordedIds) :
    later.resultOf id = earlier.resultOf id := by
  obtain ⟨more, same⟩ := grows
  have found : earlier.resultOf id ≠ none := by
    rw [ne_eq, result_of_eq_none_iff, not_not]
    exact present
  obtain ⟨result, foundEq⟩ := Option.ne_none_iff_exists'.1 found
  simp only [resultOf] at foundEq ⊢
  rw [← same, List.find?_append, foundEq, Option.some_or]

theorem failures_append_skipped {earlier later : RunProgress} {skips : List StepResult}
    (grows : later.recorded = earlier.recorded ++ skips)
    (skipped : ∀ result ∈ skips, result.outcome = .skipped) :
    later.failures = earlier.failures := by
  have noneFailed : skips.filter StepResult.isFailed = [] := by
    rw [List.filter_eq_nil_iff]
    intro result member
    simp [StepResult.isFailed, skipped result member]
  rw [failures, failures, grows, List.filter_append, noneFailed, List.append_nil]

theorem mem_failures_iff {progress : RunProgress} (distinct : progress.recordedIds.Nodup)
    {id : String} :
    id ∈ progress.failures ↔
      ∃ result, progress.resultOf id = some result ∧ result.outcome = .failed := by
  constructor
  · intro member
    obtain ⟨result, kept, same⟩ := List.mem_map.1 member
    obtain ⟨present, failed⟩ := List.mem_filter.1 kept
    have isFailure : result.outcome = .failed := by simpa [StepResult.isFailed] using failed
    exact ⟨result, same ▸ result_of_mem distinct present, isFailure⟩
  · rintro ⟨result, found, failed⟩
    obtain ⟨present, same⟩ := mem_of_result_of found
    rw [← same]
    exact List.mem_map_of_mem (List.mem_filter.2 ⟨present, by simp [StepResult.isFailed, failed]⟩)

end RunProgress

def dispatchIds (dispatches : List Dispatch) : List String :=
  dispatches.map fun dispatch => dispatch.step.id

@[simp]
theorem dispatch_ids_append (left right : List Dispatch) :
    dispatchIds (left ++ right) = dispatchIds left ++ dispatchIds right :=
  List.map_append

namespace CompiledPipeline

theorem get?_block_dependents (dependents : List String) (cascade : Dictionary String)
    (failed id : String) :
    (dependents.foldl (fun cascade dependent => cascade.insertNew dependent failed)
        cascade).get? id =
      if id ∈ dependents then (cascade.get? id).or (some failed) else cascade.get? id := by
  induction dependents generalizing cascade with
  | nil => simp
  | cons dependent rest induction =>
      rw [List.foldl_cons, induction, Dictionary.get?_insertNew]
      by_cases same : id = dependent
      · subst same
        -- The step may be met again, but what blocks it stays.
        cases cascade.get? id <;> simp
      · simp [same]

theorem get?_cascade (compiled : CompiledPipeline) (failures : List String)
    (cascade : Dictionary String) (id : String) :
    (failures.foldl compiled.block cascade).get? id =
      (cascade.get? id).or (failures.find? fun failed => compiled.graph.isAncestor failed id) := by
  induction failures generalizing cascade with
  | nil => simp
  | cons failed rest induction =>
      rw [List.foldl_cons, induction, block, get?_block_dependents, List.find?_cons,
        Graph.isAncestor, List.contains_eq_mem]
      by_cases isDependent : id ∈ compiled.graph.transitiveDependents failed
      · simp [isDependent]
      · simp [isDependent]

/-- A step is blocked by the first recorded failure among its ancestors. -/
theorem blocked_by_eq_find (compiled : CompiledPipeline) (failures : List String) (id : String) :
    compiled.blockedBy? failures id =
      failures.find? fun failed => compiled.graph.isAncestor failed id := by
  rw [blockedBy?, cascade, get?_cascade]
  rfl

theorem mem_of_blocked_by {compiled : CompiledPipeline} {failures : List String}
    {id failed : String} (blocks : compiled.blockedBy? failures id = some failed) :
    failed ∈ failures ∧ compiled.graph.isAncestor failed id = true := by
  rw [blocked_by_eq_find] at blocks
  exact ⟨List.mem_of_find?_eq_some blocks, by simpa using List.find?_some blocks⟩

theorem resolve_wave_append (compiled : CompiledPipeline) (progress : RunProgress)
    (before rest : List Step) :
    compiled.resolveWave progress (before ++ rest) =
      ((compiled.resolveWave (compiled.resolveWave progress before).1 rest).1,
        (compiled.resolveWave progress before).2
          ++ (compiled.resolveWave (compiled.resolveWave progress before).1 rest).2) := by
  induction before generalizing progress with
  | nil => rfl
  | cons step before induction =>
      simp only [List.cons_append, resolveWave]
      cases compiled.resolve progress step with
      | blocked failed => exact induction _
      | conditionFalse => exact induction _
      | dispatched => simp [induction]

/-- The steps that a wave skips, which are recorded at once, and those it dispatches. -/
theorem resolve_wave_splits (compiled : CompiledPipeline) (progress : RunProgress)
    (steps : List Step) :
    ∃ skips, (compiled.resolveWave progress steps).1.recorded = progress.recorded ++ skips ∧
      (∀ result ∈ skips, result.outcome = .skipped) ∧
      (skips.map StepResult.stepId
        ++ dispatchIds (compiled.resolveWave progress steps).2).Perm (steps.map Step.id) := by
  induction steps generalizing progress with
  | nil => exact ⟨[], by simp [resolveWave], by simp, by simp [resolveWave, dispatchIds]⟩
  | cons step rest induction =>
      have skipping : ∀ reason, ∃ skips,
          (compiled.resolveWave (progress.skip step.id reason) rest).1.recorded =
            progress.recorded ++ skips ∧
          (∀ result ∈ skips, result.outcome = .skipped) ∧
          (skips.map StepResult.stepId
            ++ dispatchIds (compiled.resolveWave (progress.skip step.id reason) rest).2).Perm
              (step.id :: rest.map Step.id) := by
        intro reason
        obtain ⟨skips, grows, skipped, permuted⟩ := induction (progress.skip step.id reason)
        refine ⟨.skipped step.id reason :: skips, by simp [grows], ?_, permuted.cons step.id⟩
        intro result member
        rcases List.mem_cons.1 member with same | later
        · rw [same]
          rfl
        · exact skipped result later
      simp only [resolveWave, List.map_cons]
      cases compiled.resolve progress step with
      | blocked failed => exact skipping _
      | conditionFalse => exact skipping _
      | dispatched =>
          obtain ⟨skips, grows, skipped, permuted⟩ :=
            induction (progress.announce (.stepStarted step.id))
          exact ⟨skips, grows, skipped, List.perm_middle.trans (permuted.cons step.id)⟩

/-- What resolving leaves of a step, given how it was resolved when its turn came. -/
theorem resolve_wave_at (compiled : CompiledPipeline) (progress : RunProgress)
    (before after : List Step) (step : Step) :
    let resolved := compiled.resolveWave progress (before ++ step :: after)
    match compiled.resolve (compiled.resolveWave progress before).1 step with
    | .blocked failed =>
        .skipped step.id (SkipReason.dependencyFailed failed) ∈ resolved.1.recorded
    | .conditionFalse => .skipped step.id SkipReason.conditionFalse ∈ resolved.1.recorded
    | .dispatched => ⟨step, compiled.pipeline.environmentOf step⟩ ∈ resolved.2 := by
  intro resolved
  have resolvedEq : resolved = _ := compiled.resolve_wave_append progress before (step :: after)
  rw [resolvedEq]
  simp only [resolveWave]
  cases compiled.resolve (compiled.resolveWave progress before).1 step with
  | blocked failed =>
      obtain ⟨skips, grows, _⟩ := compiled.resolve_wave_splits
        ((compiled.resolveWave progress before).1.skip step.id
          (SkipReason.dependencyFailed failed)) after
      simp [grows]
  | conditionFalse =>
      obtain ⟨skips, grows, _⟩ := compiled.resolve_wave_splits
        ((compiled.resolveWave progress before).1.skip step.id SkipReason.conditionFalse) after
      simp [grows]
  | dispatched => simp

end CompiledPipeline

/-- How every step ends when it is carried out: with a result that names it and is no
skip, or, when its task breaks down, with none. -/
structure StepEndings where
  ending : String → Option StepResult
  named : ∀ id result, ending id = some result → result.stepId = id
  decided : ∀ id result, ending id = some result → result.outcome ≠ .skipped

namespace StepEndings

/-- The result recorded for a step that was carried out. -/
def result (endings : StepEndings) (id : String) : StepResult :=
  (endings.ending id).getD (.aborted id)

theorem result_step_id (endings : StepEndings) (id : String) :
    (endings.result id).stepId = id := by
  rw [result]
  cases ended : endings.ending id with
  | none => rfl
  | some result => exact endings.named id result ended

theorem result_not_skipped (endings : StepEndings) (id : String) :
    (endings.result id).outcome ≠ .skipped := by
  rw [result]
  cases ended : endings.ending id with
  | none => simp [StepResult.aborted]
  | some result => exact endings.decided id result ended

theorem result_ne_skipped (endings : StepEndings) (id reason : String) :
    endings.result id ≠ .skipped id reason :=
  fun same => endings.result_not_skipped id (congrArg StepResult.outcome same)

/-- The results that dispatched steps leave, in the order of their dispatch. -/
def finished (endings : StepEndings) (dispatches : List Dispatch) : List StepResult :=
  dispatches.filterMap fun dispatch => endings.ending dispatch.step.id

theorem finished_step_id_iff (endings : StepEndings) {dispatches : List Dispatch}
    {dispatch : Dispatch} (member : dispatch ∈ dispatches) :
    (∃ result ∈ endings.finished dispatches, result.stepId = dispatch.step.id) ↔
      endings.ending dispatch.step.id ≠ none := by
  constructor
  · rintro ⟨result, present, same⟩ lost
    obtain ⟨other, _, ended⟩ := List.mem_filterMap.1 present
    have otherId := endings.named _ _ ended
    rw [← otherId.symm.trans same] at lost
    simp [lost] at ended
  · intro ended
    obtain ⟨result, endedEq⟩ := Option.ne_none_iff_exists'.1 ended
    exact ⟨result, List.mem_filterMap.2 ⟨dispatch, member, endedEq⟩, endings.named _ _ endedEq⟩

/-- The dispatched steps whose tasks break down. -/
def lost (endings : StepEndings) (dispatches : List Dispatch) : List Dispatch :=
  dispatches.filter fun dispatch => (endings.ending dispatch.step.id).isNone

theorem finished_with_aborted_perm (endings : StepEndings) (dispatches : List Dispatch) :
    (endings.finished dispatches
      ++ (endings.lost dispatches).map fun dispatch => StepResult.aborted dispatch.step.id).Perm
      (dispatches.map fun dispatch => endings.result dispatch.step.id) := by
  induction dispatches with
  | nil => simp [finished, lost]
  | cons dispatch rest induction =>
      cases ended : endings.ending dispatch.step.id with
      | none =>
          have resultEq : endings.result dispatch.step.id = .aborted dispatch.step.id := by
            rw [result, ended, Option.getD_none]
          simp only [finished, lost, List.filterMap_cons, List.filter_cons, ended,
            Option.isNone_none, if_true, List.map_cons, resultEq]
          exact List.perm_middle.trans (induction.cons _)
      | some ending =>
          have resultEq : endings.result dispatch.step.id = ending := by
            rw [result, ended, Option.getD_some]
          simp only [finished, lost, List.filterMap_cons, List.filter_cons, ended,
            Option.isNone_some, Bool.false_eq_true, if_false, List.map_cons, resultEq]
          exact induction.cons _

end StepEndings

/-- Whatever the order in which steps finish, each dispatched step gets its result once. Of
the steps whose tasks break down some may count as aborted from the start: the others are
counted in the end. -/
theorem complete_counted_perm (endings : StepEndings) {dispatches : List Dispatch}
    {finished : List StepResult} (counted : String → Bool)
    (finishes : finished.Perm (endings.finished dispatches ++
      ((endings.lost dispatches).filter fun dispatch => counted dispatch.step.id).map
        fun dispatch => .aborted dispatch.step.id)) :
    (CompiledPipeline.completeResults dispatches finished).Perm
      (dispatches.map fun dispatch => endings.result dispatch.step.id) := by
  let aborted (dispatch : Dispatch) : StepResult := .aborted dispatch.step.id
  -- What is missing among the finished results are the lost steps that are not counted yet.
  have missing : (dispatches.filter fun dispatch =>
      !finished.any fun result => result.stepId = dispatch.step.id) =
        (endings.lost dispatches).filter fun dispatch => !counted dispatch.step.id := by
    rw [StepEndings.lost, List.filter_filter]
    apply List.filter_congr
    intro dispatch member
    have present : (∃ result ∈ finished, result.stepId = dispatch.step.id) ↔
        endings.ending dispatch.step.id ≠ none ∨ counted dispatch.step.id = true := by
      simp only [finishes.mem_iff, List.mem_append, or_and_right, exists_or,
        endings.finished_step_id_iff member]
      constructor
      · rintro (ended | ⟨result, inLost, same⟩)
        · exact Or.inl ended
        · obtain ⟨other, kept, rfl⟩ := List.mem_map.1 inLost
          have sameId : other.step.id = dispatch.step.id := same
          exact Or.inr (sameId ▸ (List.mem_filter.1 kept).2)
      · rintro (ended | isCounted)
        · exact Or.inl ended
        · by_cases ended : endings.ending dispatch.step.id = none
          · refine Or.inr ⟨_, List.mem_map.2 ⟨dispatch, ?_, rfl⟩, rfl⟩
            exact List.mem_filter.2 ⟨List.mem_filter.2 ⟨member, by simp [ended]⟩, isCounted⟩
          · exact Or.inl ended
    have found : (finished.any fun result => result.stepId = dispatch.step.id) = true ↔ _ :=
      Iff.trans (by simp) present
    rw [Bool.eq_iff_iff, Bool.not_eq_true', ← Bool.not_eq_true, found]
    simp [and_comm]
  have split := (List.filter_append_perm (fun dispatch => counted dispatch.step.id)
    (endings.lost dispatches)).map aborted
  rw [List.map_append] at split
  have completed := (finishes.append_right _).trans
    ((List.Perm.of_eq (List.append_assoc _ _ _)).trans (split.append_left _))
  rw [CompiledPipeline.completeResults, missing]
  exact completed.trans (endings.finished_with_aborted_perm dispatches)

theorem complete_results_perm (endings : StepEndings) {dispatches : List Dispatch}
    {finished : List StepResult} (finishes : finished.Perm (endings.finished dispatches)) :
    (CompiledPipeline.completeResults dispatches finished).Perm
      (dispatches.map fun dispatch => endings.result dispatch.step.id) :=
  complete_counted_perm endings (fun _ => false) (by simpa using finishes)

end PipelineWaves
