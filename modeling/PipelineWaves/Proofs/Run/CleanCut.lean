import PipelineWaves.Proofs.Run.Trace

/-!
# Clean cuts

An interruption cuts a run cleanly. Before the cut the run goes like an uninterrupted run
of the same inputs; behind it no step starts, every step is skipped, and their number is
announced. An interruption that no wave finds any more changes nothing.

Runs are compared up to identifiers and times. Nothing that a run decides depends on these,
so each of its parts commutes with erasing them, and two runs of the same inputs go in
lockstep from wave to wave.
-/

set_option autoImplicit false

namespace PipelineWaves

namespace RunEvent

def untimed : RunEvent → RunEvent
  | .runStarted _ pipelineName steps waves => .runStarted .zero pipelineName steps waves
  | .stepSucceeded step _ => .stepSucceeded step .zero
  | .runCompleted _ status => .runCompleted .zero status
  | event => event

def remaining? : RunEvent → Option Nat
  | .runInterrupted remaining => some remaining
  | _ => none

end RunEvent

def announcedRemaining (events : List RunEvent) : List Nat :=
  events.filterMap RunEvent.remaining?

theorem left_events_untimed (waves : List (List String)) :
    (leftEvents waves).map RunEvent.untimed = leftEvents waves := by
  cases waves with
  | nil => rfl
  | cons wave rest => simp [leftEvents, RunEvent.untimed, Function.comp_def]

namespace RunProgress

def untimed (progress : RunProgress) : RunProgress :=
  ⟨progress.recorded.map StepResult.untimed, progress.events.map RunEvent.untimed⟩

theorem announce_untimed (progress : RunProgress) (event : RunEvent) :
    (progress.announce event).untimed = progress.untimed.announce event.untimed := by
  simp [untimed, announce]

theorem skip_untimed (progress : RunProgress) (id reason : String) :
    (progress.skip id reason).untimed = progress.untimed.skip id reason := by
  simp [untimed, skip, announce, record, RunEvent.untimed, StepResult.untimed, StepResult.skipped]

theorem settle_untimed (progress : RunProgress) (result : StepResult) :
    (progress.settle result).untimed = progress.untimed.settle result.untimed := by
  have sameFailure : result.untimed.isFailed = result.isFailed := rfl
  rw [settle, settle, sameFailure]
  cases result.isFailed <;>
    simp [untimed, announce, record, RunEvent.untimed, StepResult.untimed]

theorem settle_all_untimed (progress : RunProgress) (results : List StepResult) :
    (results.foldl settle progress).untimed =
      (results.map StepResult.untimed).foldl settle progress.untimed := by
  induction results generalizing progress with
  | nil => rfl
  | cons result rest induction =>
      rw [List.foldl_cons, induction, settle_untimed, List.map_cons, List.foldl_cons]

theorem result_of_untimed (progress : RunProgress) (id : String) :
    progress.untimed.resultOf id = (progress.resultOf id).map StepResult.untimed := by
  rw [resultOf, resultOf, untimed, List.find?_map]
  rfl

theorem recorded_ids_untimed (progress : RunProgress) :
    progress.untimed.recordedIds = progress.recordedIds := by
  rw [recordedIds, recordedIds, untimed, List.map_map]
  rfl

theorem outcomes_untimed (progress : RunProgress) :
    progress.untimed.outcomes = progress.outcomes := by
  funext id
  rw [outcomes, outcomes, result_of_untimed, Option.map_map]
  rfl

theorem failures_untimed (progress : RunProgress) :
    progress.untimed.failures = progress.failures := by
  rw [failures, failures, untimed, List.filter_map, List.map_map]
  rfl

end RunProgress

theorem RunReport.final_status_untimed (results : List StepResult) (interrupted : Bool) :
    finalStatus (results.map StepResult.untimed) interrupted = finalStatus results interrupted := by
  rw [finalStatus, finalStatus, List.any_map]
  rfl

namespace CompiledPipeline

theorem resolve_untimed (compiled : CompiledPipeline) (progress : RunProgress) (step : Step) :
    compiled.resolve progress.untimed step = compiled.resolve progress step := by
  rw [resolve, resolve, progress.failures_untimed, progress.outcomes_untimed]

theorem resolve_wave_untimed (compiled : CompiledPipeline) (progress : RunProgress)
    (steps : List Step) :
    compiled.resolveWave progress.untimed steps =
      ((compiled.resolveWave progress steps).1.untimed,
        (compiled.resolveWave progress steps).2) := by
  induction steps generalizing progress with
  | nil => rfl
  | cons step rest induction =>
      have started : progress.untimed.announce (.stepStarted step.id) =
          (progress.announce (.stepStarted step.id)).untimed :=
        (progress.announce_untimed (.stepStarted step.id)).symm
      simp only [resolveWave, compiled.resolve_untimed, ← progress.skip_untimed, started, induction]
      cases compiled.resolve progress step <;> rfl

theorem complete_results_untimed (dispatches : List Dispatch) (finished : List StepResult) :
    (completeResults dispatches finished).map StepResult.untimed =
      completeResults dispatches (finished.map StepResult.untimed) := by
  simp only [completeResults, List.map_append, List.map_map, List.any_map]
  rfl

end CompiledPipeline

section Lockstep

variable {First Second : Type}

/-- From related states both carry out steps alike, up to times, and reach related states. -/
def Surroundings.PerformsAlike (first : Surroundings First) (second : Surroundings Second)
    (related : First → Second → Prop) : Prop :=
  ∀ dispatches state other, related state other →
    (first.perform dispatches state).1.map StepResult.untimed =
        (second.perform dispatches other).1.map StepResult.untimed ∧
      related (first.perform dispatches state).2 (second.perform dispatches other).2

/-- Two runs stand at the same point, up to times. -/
structure InStep (related : First → Second → Prop) (left : RunProgress × First)
    (right : RunProgress × Second) : Prop where
  progress : left.1.untimed = right.1.untimed
  states : related left.2 right.2

namespace CompiledPipeline

variable {compiled : CompiledPipeline} {first : Surroundings First}
  {second : Surroundings Second} {related : First → Second → Prop}

theorem run_wave_in_step (alike : first.PerformsAlike second related) (index : Nat)
    (wave : List GraphNode) {left : RunProgress × First} {right : RunProgress × Second}
    (inStep : InStep related left right) :
    InStep related (compiled.runWave first index wave left.1 left.2)
      (compiled.runWave second index wave right.1 right.2) := by
  have started : (left.1.announce (.waveStarted index (wave.map GraphNode.id))).untimed =
      (right.1.announce (.waveStarted index (wave.map GraphNode.id))).untimed := by
    rw [RunProgress.announce_untimed, RunProgress.announce_untimed, inStep.progress]
  have resolved := congrArg (compiled.resolveWave · (compiled.waveSteps wave)) started
  simp only [compiled.resolve_wave_untimed, Prod.mk.injEq] at resolved
  obtain ⟨sameProgress, sameDispatches⟩ := resolved
  obtain ⟨sameResults, states⟩ := alike (compiled.resolveWave
    (right.1.announce (.waveStarted index (wave.map GraphNode.id))) (compiled.waveSteps wave)).2
    left.2 right.2 inStep.states
  constructor
  · simp only [runWave, RunProgress.announce_untimed, RunProgress.settle_all_untimed,
      complete_results_untimed, sameProgress, sameDispatches, sameResults]
  · simpa only [runWave, sameDispatches] using states

theorem after_waves_in_step (alike : first.PerformsAlike second related)
    (waves : List (List GraphNode)) (index : Nat) {left : RunProgress × First}
    {right : RunProgress × Second} (inStep : InStep related left right) :
    InStep related (compiled.afterWaves first index waves left.1 left.2)
      (compiled.afterWaves second index waves right.1 right.2) := by
  induction waves generalizing index left right with
  | nil => exact inStep
  | cons wave rest induction =>
      exact induction (index + 1) (run_wave_in_step alike index wave inStep)

end CompiledPipeline

end Lockstep

theorem WavesTrace.announces_no_remaining {index : Nat} {waves : List (List String)}
    {events : List RunEvent} (traces : WavesTrace index waves events) :
    announcedRemaining events = [] := by
  induction traces with
  | nil => rfl
  | cons wave _ induction =>
      obtain ⟨opens, closes, _⟩ := wave
      have noneOpening := filter_map_of_forall₂ RunEvent.remaining?
        (fun _ _ first => by cases first <;> rfl) opens
      have noneClosing := filter_map_of_forall₂ RunEvent.remaining?
        (fun _ _ first => by cases first <;> rfl) closes
      rw [announcedRemaining] at induction ⊢
      simp only [List.filterMap_append, List.filterMap_cons, noneOpening, noneClosing, induction,
        RunEvent.remaining?, List.append_nil, List.filterMap_nil]

namespace CompiledPipeline

section Cut

variable {State : Type} {compiled : CompiledPipeline} {surroundings : Surroundings State}
  {identifier : RunIdentifier} {state : State}

theorem ended_of_goes_on
    (goesOn : ∀ index, ¬compiled.SeesInterruption surroundings identifier state index) :
    compiled.ended surroundings identifier state =
      (compiled.atWave surroundings identifier state compiled.graph.waves.length).1 := by
  rw [ended_of_stops (stops_after_all goesOn), List.drop_length]
  rfl

theorem report_result_of_planned {id : String} (planned : id ∈ compiled.graph.planIds) :
    (compiled.run surroundings identifier state).report.result? id =
      (compiled.ended surroundings identifier state).resultOf id :=
  (find_planned_result _ compiled.graph.planIds id).trans (if_pos planned)

theorem report_results_untimed :
    (compiled.run surroundings identifier state).report.results.map StepResult.untimed =
      compiled.graph.planIds.filterMap
        (compiled.ended surroundings identifier state).untimed.resultOf := by
  have each : (compiled.ended surroundings identifier state).untimed.resultOf = fun id =>
      ((compiled.ended surroundings identifier state).resultOf id).map StepResult.untimed :=
    funext fun id => RunProgress.result_of_untimed _ id
  rw [each]
  exact List.map_filterMap

theorem run_events_untimed {count : Nat}
    (stops : compiled.StopsAfter surroundings identifier state count) :
    (compiled.run surroundings identifier state).events.map RunEvent.untimed =
      (compiled.atWave surroundings identifier state count).1.untimed.events ++
        (leftEvents (compiled.graph.waveIds.drop count) ++
          [.runCompleted .zero
            (compiled.run surroundings identifier state).report.status]) := by
  rw [run_events_of_stops stops, List.map_append, List.map_append, left_events_untimed]
  rfl

theorem announced_of_stops (plans : compiled.graph.Plans compiled.pipeline)
    {endings : StepEndings} (leaves : surroundings.LeavesResults endings) {cut : Nat}
    (stops : compiled.StopsAfter surroundings identifier state cut)
    (inside : cut < compiled.graph.waves.length) :
    announcedRemaining (compiled.run surroundings identifier state).events =
      [(compiled.graph.waveIds.drop cut).flatten.length] := by
  obtain ⟨traced, traces, events⟩ := run_events_grammar plans leaves stops
  obtain ⟨wave, rest, left⟩ : ∃ wave rest, compiled.graph.waveIds.drop cut = wave :: rest :=
    List.exists_cons_of_ne_nil (by simpa [Graph.waveIds] using inside)
  have waves := traces.announces_no_remaining
  have skips : announcedRemaining ((wave :: rest).flatten.map
      fun step => .stepSkipped step SkipReason.interrupted) = [] := by
    rw [announcedRemaining, List.filterMap_map, List.filterMap_eq_nil_iff]
    exact fun _ _ => rfl
  rw [announcedRemaining] at waves skips ⊢
  simp only [events, left, leftEvents, List.filterMap_cons, List.filterMap_append, waves, skips,
    RunEvent.remaining?, List.nil_append, List.append_nil, List.filterMap_nil]

end Cut

section Agreement

variable {First Second : Type} {compiled : CompiledPipeline} {first : Surroundings First}
  {second : Surroundings Second} {related : First → Second → Prop}
  {identifier other : RunIdentifier} {state : First} {otherState : Second}

theorem at_wave_in_step (compiled : CompiledPipeline) (alike : first.PerformsAlike second related)
    (start : related state otherState) (identifier other : RunIdentifier) (index : Nat) :
    InStep related (compiled.atWave first identifier state index)
      (compiled.atWave second other otherState index) := by
  have started : InStep related (compiled.started identifier, state)
      (compiled.started other, otherState) := ⟨rfl, start⟩
  exact after_waves_in_step alike _ 0 started

/-- Before the cut the interrupted run and the uninterrupted one record the same. -/
theorem report_result_before_cut (plans : compiled.graph.Plans compiled.pipeline)
    {endings : StepEndings} (leaves : first.LeavesResults endings)
    (alike : first.PerformsAlike second related) (uninterrupted : second.IsUninterrupted)
    (other : RunIdentifier) (start : related state otherState) {cut : Nat}
    (stops : compiled.StopsAfter first identifier state cut) {id : String} {place : Nat}
    (placed : compiled.graph.waveOf id = some place) (below : place < cut) :
    ((compiled.run first identifier state).report.result? id).map StepResult.untimed =
      ((compiled.run second other otherState).report.result? id).map StepResult.untimed := by
  have ran := Graph.Plans.mem_first_waves_of_place placed below
  have planned := plans.mem_plan_ids.2 (plans.declared_of_wave placed)
  have inStep := at_wave_in_step compiled alike start identifier other cut
  have recorded : id ∈ (compiled.atWave second other otherState cut).1.recordedIds := by
    have sameIds := congrArg RunProgress.recordedIds inStep.progress
    rw [RunProgress.recorded_ids_untimed, RunProgress.recorded_ids_untimed] at sameIds
    rw [← sameIds]
    exact (waves_done_at_stop plans leaves stops).ids.mem_iff.2 ran
  have extended := compiled.at_wave_extends second other otherState stops.le_length
  rw [report_result_of_ran plans leaves stops ran, report_result_of_planned planned,
    ended_of_goes_on (compiled.goes_on_of_uninterrupted uninterrupted other otherState),
    RunProgress.result_of_prefix extended.recorded recorded, ← RunProgress.result_of_untimed,
    ← RunProgress.result_of_untimed, inStep.progress]

/-- Up to the cut the interrupted run announces what the uninterrupted one does. -/
theorem run_events_before_cut (alike : first.PerformsAlike second related)
    (uninterrupted : second.IsUninterrupted) (start : related state otherState) {cut : Nat}
    (stops : compiled.StopsAfter first identifier state cut) :
    ∃ shared,
      (compiled.run first identifier state).events.map RunEvent.untimed =
        shared ++ (leftEvents (compiled.graph.waveIds.drop cut) ++
          [.runCompleted .zero (compiled.run first identifier state).report.status]) ∧
      shared <+: (compiled.run second other otherState).events.map RunEvent.untimed := by
  have inStep := at_wave_in_step compiled alike start identifier other cut
  have wholeStops := stops_after_all (compiled.goes_on_of_uninterrupted uninterrupted other
    otherState)
  have extended := compiled.at_wave_extends second other otherState stops.le_length
  refine ⟨_, run_events_untimed stops, ?_⟩
  rw [inStep.progress, run_events_untimed wholeStops]
  exact (extended.events.map RunEvent.untimed).trans (List.prefix_append _ _)

/-- Two runs of the same inputs that nothing interrupts differ at most in identifiers and
times. -/
theorem runs_agree_of_goes_on (alike : first.PerformsAlike second related)
    (start : related state otherState)
    (goesOn : ∀ index, ¬compiled.SeesInterruption first identifier state index)
    (otherGoesOn : ∀ index, ¬compiled.SeesInterruption second other otherState index) :
    let run := compiled.run first identifier state
    let whole := compiled.run second other otherState
    run.report.results.map StepResult.untimed = whole.report.results.map StepResult.untimed ∧
      run.report.status = whole.report.status ∧
      run.events.map RunEvent.untimed = whole.events.map RunEvent.untimed := by
  intro run whole
  have stops := stops_after_all goesOn
  have otherStops := stops_after_all otherGoesOn
  have inStep := at_wave_in_step compiled alike start identifier other compiled.graph.waves.length
  have results : run.report.results.map StepResult.untimed =
      whole.report.results.map StepResult.untimed := by
    rw [report_results_untimed, report_results_untimed, ended_of_goes_on goesOn,
      ended_of_goes_on otherGoesOn, inStep.progress]
  have status : run.report.status = whole.report.status := by
    rw [report_status_of_stops stops, report_status_of_stops otherStops,
      ← RunReport.final_status_untimed run.report.results, results,
      RunReport.final_status_untimed]
  refine ⟨results, status, ?_⟩
  rw [run_events_untimed stops, run_events_untimed otherStops, inStep.progress, status]

end Agreement

end CompiledPipeline

/-- What a run that is interrupted before the wave `cut` has in common with an uninterrupted
run of the same inputs, whose report is `whole` and whose events are `wholeEvents`. -/
structure RunReport.IsCutFrom (report whole : RunReport) (compiled : CompiledPipeline) (cut : Nat)
    (events wholeEvents : List RunEvent) (log : List Dispatch) : Prop where
  agrees : ∀ id place, compiled.graph.waveOf id = some place → place < cut →
    ∃ result other, report.result? id = some result ∧ whole.result? id = some other ∧
      result.untimed = other.untimed
  notStarted : ∀ id place, compiled.graph.waveOf id = some place → cut ≤ place →
    id ∉ dispatchIds log ∧ .stepStarted id ∉ events
  skipped : ∀ id place, compiled.graph.waveOf id = some place → cut ≤ place →
    report.result? id = some (.skipped id SkipReason.interrupted)
  announced : announcedRemaining events = [(compiled.graph.waveIds.drop cut).flatten.length]
  sharedEvents : ∃ shared,
    events.map RunEvent.untimed = shared ++ (leftEvents (compiled.graph.waveIds.drop cut) ++
      [.runCompleted .zero report.status]) ∧
    shared <+: wholeEvents.map RunEvent.untimed

/-- An interruption cuts a run cleanly before the first wave that finds it, and changes
nothing if no wave finds it. -/
theorem interruption_cuts_cleanly {pipeline : Pipeline} {compiled : CompiledPipeline}
    (compiles : CompiledPipeline.compile pipeline = .ok compiled) {endings : StepEndings}
    {First Second : Type} {first : Surroundings First} {second : Surroundings Second}
    {related : First → Second → Prop} (finishes : first.FinishesAs endings)
    (alike : first.PerformsAlike second related) (uninterrupted : second.IsUninterrupted)
    {state : First} {otherState : Second} (start : related state otherState)
    (identifier other : RunIdentifier) :
    let run := compiled.run first identifier state
    let whole := compiled.run second other otherState
    let sees := compiled.SeesInterruption first identifier state
    (∀ cut, sees cut → (∀ earlier < cut, ¬sees earlier) →
      run.report.IsCutFrom whole.report compiled cut run.events whole.events
        (compiled.dispatched first identifier state)) ∧
    ((∀ index, ¬sees index) →
      run.report.results.map StepResult.untimed = whole.report.results.map StepResult.untimed ∧
      run.report.status = whole.report.status ∧
      run.events.map RunEvent.untimed = whole.events.map RunEvent.untimed) := by
  intro run whole sees
  have plans := CompiledPipeline.compiled_plans compiles
  have leaves := Surroundings.leaves_results_of_finishes finishes
  constructor
  · intro cut seen noneBefore
    have stops : compiled.StopsAfter first identifier state cut := ⟨noneBefore, Or.inl seen⟩
    have skipped : ∀ id place, compiled.graph.waveOf id = some place → cut ≤ place →
        run.report.result? id = some (.skipped id SkipReason.interrupted) :=
      fun id place placed behind => CompiledPipeline.report_result_of_left plans leaves stops
        (Graph.Plans.mem_last_waves_of_place placed behind)
    constructor
    case agrees =>
      intro id place placed below
      have planned := plans.mem_plan_ids.2 (plans.declared_of_wave placed)
      obtain ⟨result, found, _⟩ := CompiledPipeline.report_result_named plans leaves stops planned
      have same := CompiledPipeline.report_result_before_cut plans leaves alike
        uninterrupted other start stops placed below
      rw [found, Option.map_some, eq_comm, Option.map_eq_some_iff] at same
      obtain ⟨otherResult, otherFound, sameResult⟩ := same
      exact ⟨result, otherResult, found, otherFound, sameResult.symm⟩
    case notStarted =>
      intro id place placed behind
      refine ⟨CompiledPipeline.skipped_not_dispatched plans leaves stops
        (skipped id place placed behind), fun announced => ?_⟩
      obtain ⟨before, after, split⟩ := List.append_of_mem announced
      obtain ⟨startPlace, below, startPlaced, _⟩ :=
        CompiledPipeline.run_started plans leaves stops split
      rw [placed, Option.some.injEq] at startPlaced
      omega
    case skipped => exact skipped
    case announced => exact CompiledPipeline.announced_of_stops plans leaves stops seen.1
    case sharedEvents =>
      exact CompiledPipeline.run_events_before_cut alike uninterrupted start stops
  · exact fun goesOn => CompiledPipeline.runs_agree_of_goes_on alike start goesOn
      (compiled.goes_on_of_uninterrupted uninterrupted other otherState)

/-- Fetching breaks down and linting fails after three seconds; the run is interrupted when
the wave of the given index is over. -/
def slowSurroundings (index : Nat) : Surroundings Unit :=
  interruptedAfter index (lastFirst (fetchBreaks ⟨3, 0⟩))

theorem slow_performs_alike (index : Nat) :
    (slowSurroundings index).PerformsAlike (lastFirst (fetchBreaks .zero)) (· = ·) := by
  intro dispatches state other _
  refine ⟨?_, rfl⟩
  have alike : ∀ id, ((fetchBreaks ⟨3, 0⟩).ending id).map StepResult.untimed =
      ((fetchBreaks .zero).ending id).map StepResult.untimed := by
    intro id
    by_cases isFetch : id = "fetch" <;> simp [fetchBreaks, isFetch, StepResult.untimed]
  simp only [slowSurroundings, interruptedAfter, lastFirst, StepEndings.finished,
    List.map_reverse, List.map_filterMap, alike]

theorem release_pipeline_cuts :
    ∃ compiled, CompiledPipeline.compile releasePipeline = .ok compiled ∧
      let stopped := compiled.run (slowSurroundings 0) .zero ()
      let late := compiled.run (slowSurroundings 2) .zero ()
      let whole := compiled.run (lastFirst (fetchBreaks .zero)) .zero ()
      stopped.report.results.map StepResult.detail =
        [some "step task aborted", some "", some "run interrupted", some "run interrupted",
          some "run interrupted", some "run interrupted"] ∧
      announcedRemaining stopped.events = [4] ∧
      stopped.report.IsCutFrom whole.report compiled 1 stopped.events whole.events
        (compiled.dispatched (slowSurroundings 0) .zero ()) ∧
      late.report.results.map StepResult.untimed = whole.report.results.map StepResult.untimed ∧
      late.report.status = whole.report.status ∧
      late.events.map RunEvent.untimed = whole.events.map RunEvent.untimed := by
  have accepted : ∃ compiled, CompiledPipeline.compile releasePipeline = .ok compiled ∧
      (compiled.run (slowSurroundings 0) .zero ()).report.results.map StepResult.detail =
        [some "step task aborted", some "", some "run interrupted", some "run interrupted",
          some "run interrupted", some "run interrupted"] ∧
      announcedRemaining (compiled.run (slowSurroundings 0) .zero ()).events = [4] ∧
      (List.range compiled.graph.waves.length).filter (fun index =>
        compiled.SeesInterruption (slowSurroundings 0) .zero () index) = [1, 2] ∧
      (List.range compiled.graph.waves.length).filter (fun index =>
        compiled.SeesInterruption (slowSurroundings 2) .zero () index) = [] :=
    ⟨_, by cbv, by cbv, by cbv, by cbv, by cbv⟩
  obtain ⟨compiled, compiles, details, remaining, seen, lateSeen⟩ := accepted
  have carries (index : Nat) : (slowSurroundings index).CarriesOut (fetchBreaks ⟨3, 0⟩) :=
    fun _ _ => List.reverse_perm _
  have both (index : Nat) := interruption_cuts_cleanly compiles
    (Surroundings.finishes_of_carries_out (carries index)) (slow_performs_alike index)
    (fun _ _ => rfl) (rfl : () = ()) .zero .zero
  refine ⟨compiled, compiles, details, remaining, (both 0).1 1 ?_ ?_, (both 2).2 ?_⟩
  · rw [← CompiledPipeline.mem_interrupted_waves, seen]
    decide
  · intro earlier first
    obtain rfl : earlier = 0 := by omega
    rw [← CompiledPipeline.mem_interrupted_waves, seen]
    decide
  · intro index
    rw [← CompiledPipeline.mem_interrupted_waves, lateSeen]
    exact List.not_mem_nil

end PipelineWaves
