import PipelineWaves.Proofs.Run.FinishingOrder

/-!
# Complete reports

Every run reports on every step once, in the order of the plan, whether it is interrupted
or not and whether tasks break down or not. The steps of the waves that are carried out
follow the law of one step, the steps of the waves that are left are skipped; between them
they are all steps of the plan. The status and the exit code say whether a step failed and
whether waves were left.
-/

set_option autoImplicit false

namespace PipelineWaves

/-- Dispatched steps end as `endings` says, in any order, which may depend on the state. A
step whose task breaks down leaves no result, or is counted as aborted among the others. -/
def Surroundings.FinishesAs {State : Type} (surroundings : Surroundings State)
    (endings : StepEndings) : Prop :=
  ∀ dispatches state, ∃ counted : String → Bool,
    (surroundings.perform dispatches state).1.Perm (endings.finished dispatches ++
      ((endings.lost dispatches).filter fun dispatch => counted dispatch.step.id).map
        fun dispatch => .aborted dispatch.step.id)

theorem Surroundings.leaves_results_of_finishes {State : Type}
    {surroundings : Surroundings State} {endings : StepEndings}
    (finishes : surroundings.FinishesAs endings) : surroundings.LeavesResults endings := by
  intro dispatches state
  obtain ⟨counted, permuted⟩ := finishes dispatches state
  exact complete_counted_perm endings counted permuted

theorem Surroundings.finishes_of_carries_out {State : Type}
    {surroundings : Surroundings State} {endings : StepEndings}
    (carries : surroundings.CarriesOut endings) : surroundings.FinishesAs endings :=
  fun dispatches state => ⟨fun _ => false, by simpa using carries dispatches state⟩

namespace CompiledPipeline

section Ended

variable {State : Type} {compiled : CompiledPipeline} {surroundings : Surroundings State}
  {endings : StepEndings} {identifier : RunIdentifier} {state : State} {count : Nat}

theorem after_waves_logged (compiled : CompiledPipeline) (surroundings : Surroundings State)
    (waves : List (List GraphNode)) (index : Nat) (progress : RunProgress) (state : State)
    (log : List Dispatch) :
    let plain := compiled.afterWaves surroundings index waves progress state
    ∃ more, compiled.afterWaves surroundings.logged index waves progress (state, log) =
      (plain.1, plain.2, more) := by
  induction waves generalizing index progress state log with
  | nil => exact ⟨log, rfl⟩
  | cons wave rest induction =>
      simp only [afterWaves, compiled.run_wave_logged]
      exact induction _ _ _ _

theorem stops_after_all
    (goesOn : ∀ index, ¬compiled.SeesInterruption surroundings identifier state index) :
    compiled.StopsAfter surroundings identifier state compiled.graph.waves.length :=
  ⟨fun index _ => goesOn index, Or.inr rfl⟩

theorem goes_on_of_uninterrupted (compiled : CompiledPipeline)
    (uninterrupted : surroundings.IsUninterrupted) (identifier : RunIdentifier) (state : State)
    (index : Nat) :
    ¬compiled.SeesInterruption surroundings identifier state index := by
  rintro ⟨_, sees⟩
  exact Bool.false_ne_true ((uninterrupted _ _).symm.trans sees)

/-- Keeping a log does not change where a run stops. -/
theorem StopsAfter.logged (stops : compiled.StopsAfter surroundings identifier state count) :
    compiled.StopsAfter surroundings.logged identifier (state, []) count := by
  have sees : ∀ index, compiled.SeesInterruption surroundings.logged identifier (state, []) index ↔
      compiled.SeesInterruption surroundings identifier state index := by
    intro index
    obtain ⟨more, same⟩ := compiled.after_waves_logged surroundings
      (compiled.graph.waves.take index) 0 (compiled.started identifier) state []
    rw [SeesInterruption, SeesInterruption, atWave, same]
    rfl
  exact ⟨fun index below => mt (sees index).1 (stops.goesOn index below),
    stops.stops.imp_left (sees count).2⟩

/-- The law of one step holds of the waves before any wave, when it has its turn. -/
theorem waves_done_at_wave (plans : compiled.graph.Plans compiled.pipeline)
    (leaves : surroundings.LeavesResults endings) (identifier : RunIdentifier) (state : State)
    (index : Nat) :
    WavesDone compiled endings (compiled.graph.waves.take index)
      (compiled.atWave surroundings identifier state index).1
      (compiled.atWave surroundings.logged identifier (state, []) index).2.2 := by
  have split : compiled.graph.waves =
      ([] ++ compiled.graph.waves.take index) ++ compiled.graph.waves.drop index := by simp
  have done := (WavesDone.start compiled endings
    (compiled.started identifier).events).after_waves plans leaves 0 state split
  obtain ⟨more, same⟩ := compiled.after_waves_logged surroundings
    (compiled.graph.waves.take index) 0 (compiled.started identifier) state []
  rw [atWave, atWave, same]
  simp only [CompiledPipeline.started] at done same
  rw [same] at done
  exact done

theorem waves_done_at_stop (plans : compiled.graph.Plans compiled.pipeline)
    (leaves : surroundings.LeavesResults endings)
    (stops : compiled.StopsAfter surroundings identifier state count) :
    WavesDone compiled endings (compiled.graph.waves.take count)
      (compiled.atWave surroundings identifier state count).1
      (compiled.dispatched surroundings identifier state) := by
  have log : compiled.dispatched surroundings identifier state =
      (compiled.atWave surroundings.logged identifier (state, []) count).2.2 :=
    congrArg (fun ended => ended.2.1.2) (run_waves_of_stops stops.logged)
  rw [log]
  exact waves_done_at_wave plans leaves identifier state count

theorem ended_of_stops (stops : compiled.StopsAfter surroundings identifier state count) :
    compiled.ended surroundings identifier state =
      (compiled.atWave surroundings identifier state count).1.leave
        (compiled.graph.waves.drop count) :=
  congrArg Prod.fst (run_waves_of_stops stops)

theorem run_events_of_stops (stops : compiled.StopsAfter surroundings identifier state count) :
    (compiled.run surroundings identifier state).events =
      (compiled.atWave surroundings identifier state count).1.events ++
        (leftEvents (compiled.graph.waveIds.drop count) ++
          [.runCompleted identifier
            (compiled.run surroundings identifier state).report.status]) := by
  have reached : (compiled.ended surroundings identifier state).events =
      (compiled.atWave surroundings identifier state count).1.events ++
        leftEvents (compiled.graph.waveIds.drop count) := by
    rw [ended_of_stops stops, RunProgress.leave_eq, List.map_drop]
    rfl
  rw [← List.append_assoc, ← reached]
  rfl

theorem report_status_of_stops
    (stops : compiled.StopsAfter surroundings identifier state count) :
    (compiled.run surroundings identifier state).report.status =
      RunReport.finalStatus (compiled.run surroundings identifier state).report.results
        (decide (count < compiled.graph.waves.length)) := by
  have stopped := congrArg (fun ended => ended.2.2) (run_waves_of_stops stops)
  exact congrArg (RunReport.finalStatus _) stopped

variable (plans : compiled.graph.Plans compiled.pipeline)
  (leaves : surroundings.LeavesResults endings)
  (stops : compiled.StopsAfter surroundings identifier state count)

include plans leaves stops

theorem ended_ids_perm :
    (compiled.ended surroundings identifier state).recordedIds.Perm compiled.graph.planIds := by
  have done := waves_done_at_stop plans leaves stops
  have split := Graph.Plans.plan_ids_split
    (List.take_append_drop count compiled.graph.waves).symm
  rw [ended_of_stops stops, RunProgress.leave_eq, split, RunProgress.recordedIds,
    List.map_append, List.map_map]
  exact done.ids.append (List.Perm.of_eq (List.map_id _))

theorem report_result_eq :
    (compiled.run surroundings identifier state).report.result? =
      (compiled.ended surroundings identifier state).resultOf :=
  result_of_ended surroundings identifier state fun _ recorded =>
    (ended_ids_perm plans leaves stops).mem_iff.1 recorded

theorem report_result_named {id : String} (planned : id ∈ compiled.graph.planIds) :
    ∃ result, (compiled.run surroundings identifier state).report.result? id = some result ∧
      result.stepId = id := by
  rw [report_result_eq plans leaves stops]
  exact RunProgress.result_of_recorded ((ended_ids_perm plans leaves stops).mem_iff.2 planned)

theorem report_ids :
    (compiled.run surroundings identifier state).report.results.map StepResult.stepId =
      compiled.graph.planIds := by
  rw [compiled.report_results]
  exact (map_filter_map_of_all fun id planned =>
    report_result_named plans leaves stops planned).trans (List.map_id _)

/-- What a run records of the waves that it carries out is found in the report. -/
theorem report_result_of_ran {id : String}
    (ran : id ∈ nodeIds (compiled.graph.waves.take count).flatten) :
    (compiled.run surroundings identifier state).report.result? id =
      (compiled.atWave surroundings identifier state count).1.resultOf id := by
  have done := waves_done_at_stop plans leaves stops
  rw [report_result_eq plans leaves stops, ended_of_stops stops, RunProgress.leave_eq]
  exact RunProgress.result_of_prefix (List.prefix_append _ _) (done.ids.mem_iff.2 ran)

/-- The steps of the waves that a run leaves are skipped, whatever their dependencies. -/
theorem report_result_of_left {id : String}
    (left : id ∈ nodeIds (compiled.graph.waves.drop count).flatten) :
    (compiled.run surroundings identifier state).report.result? id =
      some (.skipped id SkipReason.interrupted) := by
  have distinct := (ended_ids_perm plans leaves stops).nodup_iff.2 plans.plan_ids_nodup
  rw [report_result_eq plans leaves stops]
  have recorded : .skipped id SkipReason.interrupted ∈
      (compiled.ended surroundings identifier state).recorded := by
    rw [ended_of_stops stops, RunProgress.leave_eq]
    exact List.mem_append_right _ (List.mem_map_of_mem left)
  exact RunProgress.result_of_mem distinct recorded

theorem settled_of_ran {step : Step} (member : step ∈ compiled.pipeline.steps)
    (ran : step.id ∈ nodeIds (compiled.graph.waves.take count).flatten) :
    Settled compiled endings (compiled.run surroundings identifier state).report.result?
      (compiled.dispatched surroundings identifier state) step := by
  have done := waves_done_at_stop plans leaves stops
  rw [← List.append_nil (compiled.dispatched surroundings identifier state)]
  exact settled_of_agree plans (List.take_append_drop count compiled.graph.waves).symm ran
    (fun known inRan => report_result_of_ran plans leaves stops inRan)
    (done.settled step member ran)

theorem dispatched_result {dispatch : Dispatch}
    (member : dispatch ∈ compiled.dispatched surroundings identifier state) :
    (compiled.run surroundings identifier state).report.result? dispatch.step.id =
      some (endings.result dispatch.step.id) := by
  have done := waves_done_at_stop plans leaves stops
  have recorded := done.once.subset (List.mem_map_of_mem member)
  rw [report_result_of_ran plans leaves stops (done.ids.mem_iff.1 recorded)]
  exact done.dispatched dispatch member

theorem skipped_not_dispatched {id reason : String}
    (skipped : (compiled.run surroundings identifier state).report.result? id =
      some (.skipped id reason)) :
    id ∉ dispatchIds (compiled.dispatched surroundings identifier state) := by
  intro logged
  obtain ⟨dispatch, member, same⟩ := List.mem_map.1 logged
  have carried := dispatched_result plans leaves stops member
  rw [same, skipped] at carried
  exact endings.result_ne_skipped id reason (Option.some.inj carried).symm

end Ended

end CompiledPipeline

namespace CompiledPipeline.StopsAfter

variable {State : Type} {compiled : CompiledPipeline} {surroundings : Surroundings State}
  {identifier : RunIdentifier} {state : State} {count : Nat}

/-- A wave is carried out exactly if neither it nor a wave before it finds an interruption. -/
theorem lt_iff (stops : compiled.StopsAfter surroundings identifier state count) {place : Nat}
    (inside : place < compiled.graph.waves.length) :
    place < count ↔
      ∀ index ≤ place, ¬compiled.SeesInterruption surroundings identifier state index := by
  constructor
  · exact fun below index notBehind => stops.goesOn index (Nat.lt_of_le_of_lt notBehind below)
  · intro noneSeen
    by_contra behind
    rcases stops.stops with sees | all
    · exact noneSeen count (Nat.not_lt.1 behind) sees
    · omega

end CompiledPipeline.StopsAfter

namespace RunReport

theorem any_failed_iff (results : List StepResult) :
    results.any StepResult.isFailed = true ↔ ∃ result ∈ results, result.outcome = .failed := by
  simp [StepResult.isFailed]

theorem none_failed_iff (results : List StepResult) :
    results.any StepResult.isFailed = false ↔ ∀ result ∈ results, result.outcome ≠ .failed := by
  simp [StepResult.isFailed]

theorem final_status_failed_iff (results : List StepResult) (interrupted : Bool) :
    finalStatus results interrupted = .failed ↔
      ∃ result ∈ results, result.outcome = .failed := by
  rw [finalStatus, ← any_failed_iff]
  cases results.any StepResult.isFailed <;> cases interrupted <;> simp

theorem final_status_cancelled_iff (results : List StepResult) (interrupted : Bool) :
    finalStatus results interrupted = .cancelled ↔
      (∀ result ∈ results, result.outcome ≠ .failed) ∧ interrupted = true := by
  rw [finalStatus, ← none_failed_iff]
  cases results.any StepResult.isFailed <;> cases interrupted <;> simp

theorem final_status_completed_iff (results : List StepResult) (interrupted : Bool) :
    finalStatus results interrupted = .completed ↔
      (∀ result ∈ results, result.outcome ≠ .failed) ∧ interrupted = false := by
  rw [finalStatus, ← none_failed_iff]
  cases results.any StepResult.isFailed <;> cases interrupted <;> simp

theorem exit_code_eq_zero_iff (report : RunReport) :
    report.exitCode = 0 ↔ ∀ result ∈ report.results, result.outcome ≠ .failed := by
  rw [exitCode, isSuccess, ← none_failed_iff]
  cases report.results.any StepResult.isFailed <;> simp

theorem outcome_partition (results : List StepResult) :
    ((results.filter fun result => result.outcome = .success) ++
      (results.filter fun result => result.outcome = .failed) ++
      results.filter fun result => result.outcome = .skipped).Perm results := by
  induction results with
  | nil => exact .nil
  | cons result rest induction =>
      cases ended : result.outcome with
      | success => simpa [ended] using induction
      | failed =>
          simp only [List.filter_cons, ended]
          exact (List.perm_middle.append_right _).trans (induction.cons result)
      | skipped =>
          simp only [List.filter_cons, ended]
          exact List.perm_middle.trans (induction.cons result)

theorem steps_partition (report : RunReport) :
    (report.succeededSteps ++ report.failedSteps ++ report.skippedSteps).Perm
      (report.results.map StepResult.stepId) := by
  have mapped := (outcome_partition report.results).map StepResult.stepId
  rwa [List.map_append, List.map_append] at mapped

theorem mem_ids_with_iff {report : RunReport}
    (distinct : (report.results.map StepResult.stepId).Nodup) {id : String}
    {outcome : StepOutcome} :
    id ∈ report.idsWith outcome ↔ outcomeIn report.result? id = some outcome := by
  have recorded : RunProgress.resultOf ⟨report.results, []⟩ = report.result? := rfl
  rw [idsWith, outcomeIn, Option.map_eq_some_iff]
  constructor
  · intro listed
    obtain ⟨result, kept, rfl⟩ := List.mem_map.1 listed
    obtain ⟨member, ended⟩ := List.mem_filter.1 kept
    exact ⟨result, recorded ▸ RunProgress.result_of_mem distinct member, by simpa using ended⟩
  · rintro ⟨result, found, ended⟩
    obtain ⟨member, rfl⟩ := RunProgress.mem_of_result_of (recorded.symm ▸ found)
    exact List.mem_map_of_mem (List.mem_filter.2 ⟨member, by simp [ended]⟩)

end RunReport

/-- What holds of the report of every run whose steps end as `endings` says. `log` is all
that was dispatched, `seen` says which waves find an interruption. -/
structure RunReport.IsComplete (report : RunReport) (compiled : CompiledPipeline)
    (endings : StepEndings) (log : List Dispatch) (seen : Nat → Prop) : Prop where
  planOrder : report.results.map StepResult.stepId = compiled.graph.planIds
  everyStepOnce :
    compiled.graph.planIds.Nodup ∧ compiled.graph.planIds.Perm compiled.pipeline.stepIds
  carriedOut : ∀ dispatch ∈ log,
    report.result? dispatch.step.id = some (endings.result dispatch.step.id)
  aborted : ∀ dispatch ∈ log, endings.ending dispatch.step.id = none →
    HasFailed report.result? dispatch.step.id ∧
      (report.result? dispatch.step.id).bind StepResult.detail = some "step task aborted"
  cascades : ∀ id place, compiled.graph.waveOf id = some place → (∀ index ≤ place, ¬seen index) →
    compiled.pipeline.HasFailedAncestor report.result? id →
      id ∉ dispatchIds log ∧
        ∃ failed, compiled.pipeline.IsAncestor failed id ∧ HasFailed report.result? failed ∧
          report.result? id = some (.skipped id (SkipReason.dependencyFailed failed))
  left : ∀ id place, compiled.graph.waveOf id = some place → (∃ index ≤ place, seen index) →
    id ∉ dispatchIds log ∧ report.result? id = some (.skipped id SkipReason.interrupted)
  failed_iff : report.status = .failed ↔ ∃ result ∈ report.results, result.outcome = .failed
  cancelled_iff : report.status = .cancelled ↔
    (∀ result ∈ report.results, result.outcome ≠ .failed) ∧ ∃ index, seen index
  completed_iff : report.status = .completed ↔
    (∀ result ∈ report.results, result.outcome ≠ .failed) ∧ ¬∃ index, seen index
  exitCode_iff : report.exitCode = 0 ↔ ∀ result ∈ report.results, result.outcome ≠ .failed
  partitioned : (report.succeededSteps ++ report.failedSteps ++ report.skippedSteps).Perm
    (report.results.map StepResult.stepId)
  listed : ∀ id outcome, id ∈ report.idsWith outcome ↔
    outcomeIn report.result? id = some outcome

/-- Every run reports completely, wherever it is interrupted, in whatever order its steps
finish and whichever of their tasks break down. -/
theorem run_reports_completely {pipeline : Pipeline} {compiled : CompiledPipeline}
    (compiles : CompiledPipeline.compile pipeline = .ok compiled) {endings : StepEndings}
    {State : Type} {surroundings : Surroundings State}
    (finishes : surroundings.FinishesAs endings) (identifier : RunIdentifier) (state : State) :
    (compiled.run surroundings identifier state).report.IsComplete compiled endings
      (compiled.dispatched surroundings identifier state)
      (compiled.SeesInterruption surroundings identifier state) := by
  have plans := CompiledPipeline.compiled_plans compiles
  have leaves := Surroundings.leaves_results_of_finishes finishes
  obtain ⟨count, stops⟩ := compiled.exists_stops_after surroundings identifier state
  have ids := CompiledPipeline.report_ids plans leaves stops
  have distinct := ids.symm ▸ plans.plan_ids_nodup
  have status := CompiledPipeline.report_status_of_stops stops
  constructor
  case planOrder => exact ids
  case everyStepOnce => exact ⟨plans.plan_ids_nodup, plans.plan_ids_perm⟩
  case carriedOut =>
    exact fun dispatch => CompiledPipeline.dispatched_result plans leaves stops
  case aborted =>
    intro dispatch member lost
    have recorded := CompiledPipeline.dispatched_result plans leaves stops member
    rw [StepEndings.result, lost, Option.getD_none] at recorded
    exact ⟨⟨_, recorded, rfl⟩, by rw [recorded]; rfl⟩
  case cascades =>
    intro id place placed noneSeen blocked
    obtain ⟨inside, _⟩ := Graph.Plans.wave_at_place placed
    have ran := Graph.Plans.mem_first_waves_of_place placed ((stops.lt_iff inside).2 noneSeen)
    obtain ⟨step, member, rfl⟩ := List.mem_map.1 (plans.declared_of_wave placed)
    obtain ⟨failed, reaches, hasFailed, recorded⟩ :=
      (CompiledPipeline.settled_of_ran plans leaves stops member ran).blocked blocked
    exact ⟨CompiledPipeline.skipped_not_dispatched plans leaves stops recorded, failed, reaches,
      hasFailed, recorded⟩
  case left =>
    rintro id place placed ⟨index, notBehind, sees⟩
    obtain ⟨inside, _⟩ := Graph.Plans.wave_at_place placed
    have behind : ¬place < count := fun below => (stops.lt_iff inside).1 below index notBehind sees
    have recorded := CompiledPipeline.report_result_of_left plans leaves stops
      (Graph.Plans.mem_last_waves_of_place placed (Nat.not_lt.1 behind))
    exact ⟨CompiledPipeline.skipped_not_dispatched plans leaves stops recorded, recorded⟩
  case failed_iff => rw [status, RunReport.final_status_failed_iff]
  case cancelled_iff =>
    rw [status, RunReport.final_status_cancelled_iff, ← stops.lt_length_iff, decide_eq_true_iff]
  case completed_iff =>
    rw [status, RunReport.final_status_completed_iff, ← stops.lt_length_iff,
      decide_eq_false_iff_not]
  case exitCode_iff => exact RunReport.exit_code_eq_zero_iff _
  case partitioned => exact RunReport.steps_partition _
  case listed => exact fun id outcome => RunReport.mem_ids_with_iff distinct

/-- The same surroundings, interrupted when the wave of the given index is over. -/
def interruptedAfter (index : Nat) (surroundings : Surroundings Unit) : Surroundings Unit :=
  { surroundings with isInterrupted := fun events _ => events.contains (.waveCompleted index) }

theorem interrupted_release_pipeline_report :
    ∃ compiled, CompiledPipeline.compile releasePipeline = .ok compiled ∧
      let stopped := interruptedAfter 1 (lastFirst (fetchBreaks .zero))
      let report := (compiled.run stopped .zero ()).report
      report.results.map (fun result => (result.stepId, result.outcome, result.detail)) =
        [("fetch", .failed, some "step task aborted"), ("lint", .failed, some ""),
          ("package", .skipped, some "dependency 'fetch' failed"),
          ("announce", .skipped, some "dependency 'fetch' failed"),
          ("publish", .skipped, some "run interrupted"),
          ("archive", .skipped, some "run interrupted")] ∧
      report.status = .failed ∧
      report.IsComplete compiled (fetchBreaks .zero) (compiled.dispatched stopped .zero ())
        (compiled.SeesInterruption stopped .zero ()) := by
  have accepted : ∃ compiled, CompiledPipeline.compile releasePipeline = .ok compiled ∧
      (compiled.run (interruptedAfter 1 (lastFirst (fetchBreaks .zero))) .zero ()).report.results.map
          (fun result => (result.stepId, result.outcome, result.detail)) =
        [("fetch", .failed, some "step task aborted"), ("lint", .failed, some ""),
          ("package", .skipped, some "dependency 'fetch' failed"),
          ("announce", .skipped, some "dependency 'fetch' failed"),
          ("publish", .skipped, some "run interrupted"),
          ("archive", .skipped, some "run interrupted")] ∧
      (compiled.run (interruptedAfter 1 (lastFirst (fetchBreaks .zero))) .zero ()).report.status =
        .failed :=
    ⟨_, by cbv, by cbv, by cbv⟩
  obtain ⟨compiled, compiles, results, status⟩ := accepted
  refine ⟨compiled, compiles, results, status, ?_⟩
  have carries : (interruptedAfter 1 (lastFirst (fetchBreaks .zero))).CarriesOut
      (fetchBreaks .zero) := fun _ _ => List.reverse_perm _
  exact run_reports_completely compiles (Surroundings.finishes_of_carries_out carries) .zero ()

end PipelineWaves
