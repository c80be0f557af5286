import PipelineWaves.Proofs.Compilation
import PipelineWaves.Proofs.Graph.Ancestor
import PipelineWaves.Proofs.Run.Resolution

/-!
# The turn of a step

What a run makes of one step when the wave of the step starts. A step with a
failed ancestor is skipped and names one; any other step is skipped if its
condition is false and else carried out. A condition sees what the plan lists
before its step, except the steps of its own wave that are carried out. The law
of one step, `Settled`, speaks of the results of the whole run only, so it can be
carried from the turn of the step to the end.
-/

set_option autoImplicit false

namespace PipelineWaves

def HasFailed (results : String → Option StepResult) (id : String) : Prop :=
  ∃ result, results id = some result ∧ result.outcome = .failed

def Pipeline.HasFailedAncestor (pipeline : Pipeline) (results : String → Option StepResult)
    (id : String) : Prop :=
  ∃ failed, pipeline.IsAncestor failed id ∧ HasFailed results failed

/-- The outcomes that the condition of `id` sees when its turn comes: those of all that
the plan lists before it, but of its own wave only the skips. -/
def Graph.outcomesSeenBy (graph : Graph) (results : String → Option StepResult) (id : String) :
    Outcomes :=
  fun other =>
    match results other with
    | none => none
    | some result =>
        if other ∈ graph.planIds.takeWhile (fun planned => planned ≠ id) ∧
            (graph.waveOf other ≠ graph.waveOf id ∨ result.outcome = .skipped) then
          some result.outcome
        else none

/-- What becomes of a step, given the results of all steps and the log of dispatches. -/
structure Settled (compiled : CompiledPipeline) (endings : StepEndings)
    (results : String → Option StepResult) (log : List Dispatch) (step : Step) : Prop where
  blocked : compiled.pipeline.HasFailedAncestor results step.id →
    ∃ failed, compiled.pipeline.IsAncestor failed step.id ∧ HasFailed results failed ∧
      results step.id = some (.skipped step.id (SkipReason.dependencyFailed failed))
  conditionFalse : ¬compiled.pipeline.HasFailedAncestor results step.id →
    compiled.conditionHolds (compiled.graph.outcomesSeenBy results step.id) step = false →
      results step.id = some (.skipped step.id SkipReason.conditionFalse)
  carriedOut : ¬compiled.pipeline.HasFailedAncestor results step.id →
    compiled.conditionHolds (compiled.graph.outcomesSeenBy results step.id) step = true →
      results step.id = some (endings.result step.id) ∧
        ⟨step, compiled.pipeline.environmentOf step⟩ ∈ log

namespace Graph.Plans

variable {graph : Graph} {pipeline : Pipeline}

theorem has_failed_ancestor_congr (plans : graph.Plans pipeline)
    {first rest : List (List GraphNode)} {results later : String → Option StepResult} {id : String}
    (split : graph.waves = first ++ rest) (member : id ∈ nodeIds first.flatten)
    (agree : ∀ known ∈ nodeIds first.flatten, later known = results known) :
    pipeline.HasFailedAncestor later id ↔ pipeline.HasFailedAncestor results id := by
  apply exists_congr
  intro failed
  apply and_congr_right
  intro reaches
  rw [HasFailed, HasFailed, agree failed (plans.ancestor_in_first_waves split member reaches)]

theorem outcomes_seen_congr (plans : graph.Plans pipeline) {first rest : List (List GraphNode)}
    {results later : String → Option StepResult} {id : String}
    (split : graph.waves = first ++ rest) (member : id ∈ nodeIds first.flatten)
    (agree : ∀ known ∈ nodeIds first.flatten, later known = results known) :
    graph.outcomesSeenBy later id = graph.outcomesSeenBy results id := by
  funext other
  by_cases before : other ∈ graph.planIds.takeWhile fun planned => planned ≠ id
  · have known := plans.mem_first_waves_of_before split member before
    rw [outcomesSeenBy, outcomesSeenBy, agree other known]
  · simp only [outcomesSeenBy, before, false_and, if_false]
    cases later other <;> cases results other <;> rfl

end Graph.Plans

theorem settled_of_agree {compiled : CompiledPipeline} {endings : StepEndings}
    (plans : compiled.graph.Plans compiled.pipeline) {first rest : List (List GraphNode)}
    {results later : String → Option StepResult} {log moreLog : List Dispatch} {step : Step}
    (split : compiled.graph.waves = first ++ rest) (member : step.id ∈ nodeIds first.flatten)
    (agree : ∀ known ∈ nodeIds first.flatten, later known = results known)
    (settled : Settled compiled endings results log step) :
    Settled compiled endings later (log ++ moreLog) step := by
  have sameFailures := plans.has_failed_ancestor_congr split member agree
  have sameSeen := plans.outcomes_seen_congr split member agree
  have sameResult := agree step.id member
  refine ⟨?_, ?_, ?_⟩
  · intro blocked
    obtain ⟨failed, reaches, hasFailed, recorded⟩ := settled.blocked (sameFailures.1 blocked)
    have failedKnown := plans.ancestor_in_first_waves split member reaches
    refine ⟨failed, reaches, ?_, sameResult.trans recorded⟩
    rwa [HasFailed, agree failed failedKnown]
  · intro notBlocked isFalse
    rw [sameFailures] at notBlocked
    rw [sameSeen] at isFalse
    exact sameResult.trans (settled.conditionFalse notBlocked isFalse)
  · intro notBlocked isTrue
    rw [sameFailures] at notBlocked
    rw [sameSeen] at isTrue
    obtain ⟨recorded, inLog⟩ := settled.carriedOut notBlocked isTrue
    exact ⟨sameResult.trans recorded, List.mem_append_left _ inLog⟩

/-- `turn` is the progress when `step` is resolved, after the steps `before` of its wave;
`start` is the progress before the wave and `later` some progress after it. -/
structure IsTurn (endings : StepEndings) (done : List (List GraphNode)) (before : List Step)
    (start turn later : RunProgress) : Prop where
  startIds : start.recordedIds.Perm (nodeIds done.flatten)
  skips : ∃ skips, turn.recorded = start.recorded ++ skips ∧
    ∀ result ∈ skips, result.outcome = .skipped ∧ result.stepId ∈ before.map Step.id
  grows : turn.recorded <+: later.recorded
  laterDistinct : later.recordedIds.Nodup
  carriedOut : ∀ earlier ∈ before, earlier.id ∉ turn.recordedIds →
    later.resultOf earlier.id = some (endings.result earlier.id)

namespace IsTurn

variable {endings : StepEndings} {done rest : List (List GraphNode)} {wave : List GraphNode}
  {before : List Step} {step : Step} {start turn later : RunProgress}

theorem same_failures (isTurn : IsTurn endings done before start turn later) :
    turn.failures = start.failures := by
  obtain ⟨skips, grows, skipped⟩ := isTurn.skips
  exact RunProgress.failures_append_skipped grows fun result member => (skipped result member).1

theorem start_prefix (isTurn : IsTurn endings done before start turn later) :
    start.recorded <+: later.recorded := by
  obtain ⟨skips, same, _⟩ := isTurn.skips
  exact List.IsPrefix.trans ⟨skips, same.symm⟩ isTurn.grows

theorem start_distinct (isTurn : IsTurn endings done before start turn later) :
    start.recordedIds.Nodup :=
  (isTurn.start_prefix.sublist.map StepResult.stepId).nodup isTurn.laterDistinct

theorem mem_start_failures (isTurn : IsTurn endings done before start turn later) {id : String}
    (known : id ∈ nodeIds done.flatten) :
    id ∈ turn.failures ↔ HasFailed later.resultOf id := by
  have recorded := isTurn.startIds.mem_iff.2 known
  rw [isTurn.same_failures, RunProgress.mem_failures_iff isTurn.start_distinct, HasFailed,
    RunProgress.result_of_prefix isTurn.start_prefix recorded]

theorem failures_known (isTurn : IsTurn endings done before start turn later) {id : String}
    (failed : id ∈ turn.failures) : id ∈ nodeIds done.flatten := by
  rw [isTurn.same_failures, RunProgress.mem_failures_iff isTurn.start_distinct] at failed
  obtain ⟨result, found, _⟩ := failed
  obtain ⟨present, same⟩ := RunProgress.mem_of_result_of found
  rw [← isTurn.startIds.mem_iff, ← same]
  exact List.mem_map_of_mem present

/-- The step that blocks another in its turn is an ancestor that fails in the run. -/
theorem blocked_by {compiled : CompiledPipeline} (plans : compiled.graph.Plans compiled.pipeline)
    {failed : String} (isTurn : IsTurn endings done before start turn later)
    (found : compiled.blockedBy? turn.failures step.id = some failed) :
    compiled.pipeline.IsAncestor failed step.id ∧ HasFailed later.resultOf failed := by
  obtain ⟨isFailure, holds⟩ := CompiledPipeline.mem_of_blocked_by found
  exact ⟨plans.is_ancestor_iff.1 holds,
    (isTurn.mem_start_failures (isTurn.failures_known isFailure)).1 isFailure⟩

/-- A failed ancestor blocks its descendants, as it was recorded in an earlier wave. -/
theorem not_blocked {compiled : CompiledPipeline} (plans : compiled.graph.Plans compiled.pipeline)
    (split : compiled.graph.waves = done ++ wave :: rest) (member : step.id ∈ nodeIds wave)
    (isTurn : IsTurn endings done before start turn later)
    (notFound : compiled.blockedBy? turn.failures step.id = none) :
    ¬compiled.pipeline.HasFailedAncestor later.resultOf step.id := by
  rintro ⟨failed, reaches, hasFailed⟩
  have known := plans.ancestor_before_wave split member reaches
  have isFailure := (isTurn.mem_start_failures known).2 hasFailed
  rw [CompiledPipeline.blocked_by_eq_find, List.find?_eq_none] at notFound
  exact notFound failed isFailure (plans.is_ancestor_iff.2 reaches)

section Seen

variable {graph : Graph} {pipeline : Pipeline} {after : List String}

theorem planned_before (plans : graph.Plans pipeline) (split : graph.waves = done ++ wave :: rest)
    (splitWave : nodeIds wave = before.map Step.id ++ step.id :: after) :
    graph.planIds.takeWhile (fun planned => planned ≠ step.id) =
      nodeIds done.flatten ++ before.map Step.id := by
  have splitPlan : graph.planIds = (nodeIds done.flatten ++ before.map Step.id) ++
      step.id :: (after ++ nodeIds rest.flatten) := by
    rw [Graph.Plans.plan_ids_split split, List.flatten_cons, node_ids_append, splitWave]
    simp [List.append_assoc]
  exact plans.take_while_split splitPlan

theorem visible_of_recorded (plans : graph.Plans pipeline)
    (split : graph.waves = done ++ wave :: rest)
    (splitWave : nodeIds wave = before.map Step.id ++ step.id :: after)
    (isTurn : IsTurn endings done before start turn later) {other : String} {result : StepResult}
    (found : turn.resultOf other = some result) :
    other ∈ nodeIds done.flatten ++ before.map Step.id ∧
      (graph.waveOf other ≠ graph.waveOf step.id ∨ result.outcome = .skipped) := by
  obtain ⟨skips, turnEq, skipped⟩ := isTurn.skips
  obtain ⟨present, sameId⟩ := RunProgress.mem_of_result_of found
  rw [turnEq] at present
  rcases List.mem_append.1 present with earlier | inWave
  · have known : other ∈ nodeIds done.flatten :=
      isTurn.startIds.mem_iff.1 (sameId ▸ List.mem_map_of_mem earlier)
    obtain ⟨index, below, place⟩ := plans.wave_of_earlier split known
    have ownWave : graph.waveOf step.id = some done.length :=
      plans.wave_of_id_eq split (by simp [splitWave])
    refine ⟨List.mem_append_left _ known, Or.inl ?_⟩
    rw [place, ownWave]
    simp
    omega
  · have both := skipped result inWave
    exact ⟨List.mem_append_right _ (sameId ▸ both.2), Or.inr both.1⟩

/-- What is recorded after the turn is no skip of a step before it. -/
theorem hidden_of_unrecorded (plans : graph.Plans pipeline)
    (split : graph.waves = done ++ wave :: rest)
    (splitWave : nodeIds wave = before.map Step.id ++ step.id :: after)
    (isTurn : IsTurn endings done before start turn later) {other : String} {result : StepResult}
    (unrecorded : other ∉ turn.recordedIds) (found : later.resultOf other = some result) :
    ¬(other ∈ nodeIds done.flatten ++ before.map Step.id ∧
      (graph.waveOf other ≠ graph.waveOf step.id ∨ result.outcome = .skipped)) := by
  rintro ⟨earlier, visible⟩
  rcases List.mem_append.1 earlier with known | inWave
  · obtain ⟨skips, turnEq, _⟩ := isTurn.skips
    apply unrecorded
    have started := isTurn.startIds.mem_iff.2 known
    simp only [RunProgress.recordedIds, turnEq, List.map_append]
    exact List.mem_append_left _ started
  · obtain ⟨sibling, siblingMember, same⟩ := List.mem_map.1 inWave
    have carried := isTurn.carriedOut sibling siblingMember (same ▸ unrecorded)
    rw [same, found] at carried
    have notSkipped := endings.result_not_skipped other
    rw [← Option.some.inj carried] at notSkipped
    have sameWave : graph.waveOf other = graph.waveOf step.id := by
      rw [plans.wave_of_id_eq split (by simp [splitWave, inWave]),
        plans.wave_of_id_eq split (by simp [splitWave])]
    exact visible.elim (fun different => different sameWave) notSkipped

theorem outcomes_eq_seen (plans : graph.Plans pipeline)
    (split : graph.waves = done ++ wave :: rest)
    (splitWave : nodeIds wave = before.map Step.id ++ step.id :: after)
    (isTurn : IsTurn endings done before start turn later) :
    turn.outcomes = graph.outcomesSeenBy later.resultOf step.id := by
  funext other
  rw [RunProgress.outcomes, Graph.outcomesSeenBy, planned_before plans split splitWave]
  by_cases recorded : other ∈ turn.recordedIds
  · obtain ⟨result, found⟩ := Option.ne_none_iff_exists'.1
      (fun none => RunProgress.result_of_eq_none_iff.1 none recorded)
    have same := RunProgress.result_of_prefix isTurn.grows recorded
    rw [same, found]
    simp only [Option.map_some]
    rw [if_pos (isTurn.visible_of_recorded plans split splitWave found)]
  · rw [RunProgress.result_of_eq_none_iff.2 recorded]
    cases found : later.resultOf other with
    | none => rfl
    | some result =>
        simp only [Option.map_none]
        rw [if_neg (isTurn.hidden_of_unrecorded plans split splitWave recorded found)]

end Seen

theorem settled {compiled : CompiledPipeline} (plans : compiled.graph.Plans compiled.pipeline)
    {after : List String} {log : List Dispatch}
    (split : compiled.graph.waves = done ++ wave :: rest)
    (splitWave : nodeIds wave = before.map Step.id ++ step.id :: after)
    (isTurn : IsTurn endings done before start turn later)
    (left : match compiled.resolve turn step with
      | .blocked failed =>
          later.resultOf step.id =
            some (.skipped step.id (SkipReason.dependencyFailed failed))
      | .conditionFalse =>
          later.resultOf step.id = some (.skipped step.id SkipReason.conditionFalse)
      | .dispatched =>
          later.resultOf step.id = some (endings.result step.id) ∧
            ⟨step, compiled.pipeline.environmentOf step⟩ ∈ log) :
    Settled compiled endings later.resultOf log step := by
  have member : step.id ∈ nodeIds wave := by simp [splitWave]
  have seen := isTurn.outcomes_eq_seen plans split splitWave
  rw [CompiledPipeline.resolve, seen] at left
  cases blocks : compiled.blockedBy? turn.failures step.id with
  | some failed =>
      obtain ⟨reaches, hasFailed⟩ := isTurn.blocked_by plans blocks
      have blocked : compiled.pipeline.HasFailedAncestor later.resultOf step.id :=
        ⟨failed, reaches, hasFailed⟩
      simp only [blocks] at left
      exact
        { blocked := fun _ => ⟨failed, reaches, hasFailed, left⟩
          conditionFalse := fun notBlocked => absurd blocked notBlocked
          carriedOut := fun notBlocked => absurd blocked notBlocked }
  | none =>
      have notBlocked := isTurn.not_blocked plans split member blocks
      simp only [blocks] at left
      constructor
      · exact fun blocked => absurd blocked notBlocked
      · intro _ isFalse
        simpa only [isFalse, Bool.false_eq_true, if_false] using left
      · intro _ isTrue
        simpa only [isTrue, if_true] using left

end IsTurn

end PipelineWaves
