import PipelineWaves.Proofs.Run.Trace

/-!
# What siblings show

What the condition of a step sees of the steps of its own wave and of later waves. Results
are recorded when a wave is over, but skips at once, while the wave is still being resolved.
So of these steps a condition sees nothing but the skips of siblings that are declared before
its own step: it never sees that a sibling succeeded or failed.
-/

set_option autoImplicit false

namespace PipelineWaves

theorem mem_take_while_of_sublist {part all : List String} (sublist : part.Sublist all)
    (distinct : all.Nodup) {id other : String} (present : id ∈ part) (alsoPresent : other ∈ part) :
    other ∈ part.takeWhile (fun item => item ≠ id) ↔
      other ∈ all.takeWhile fun item => item ≠ id := by
  induction sublist with
  | slnil => cases present
  | cons first sublist induction =>
      obtain ⟨notFirst, distinct⟩ := List.nodup_cons.1 distinct
      have idOther : first ≠ id := fun same => notFirst (same ▸ sublist.subset present)
      have otherOther : other ≠ first := fun same => notFirst (same ▸ sublist.subset alsoPresent)
      rw [induction distinct present alsoPresent,
        List.takeWhile_cons_of_pos (by simpa using idOther), List.mem_cons, or_iff_right otherOther]
  | cons_cons first sublist induction =>
      obtain ⟨_, distinct⟩ := List.nodup_cons.1 distinct
      by_cases isFirst : first = id
      · simp [isFirst]
      · have inRest : id ∈ _ := (List.mem_cons.1 present).resolve_left (Ne.symm isFirst)
        rw [List.takeWhile_cons_of_pos (by simpa using isFirst),
          List.takeWhile_cons_of_pos (by simpa using isFirst), List.mem_cons, List.mem_cons]
        by_cases otherFirst : other = first
        · simp [otherFirst]
        · rw [induction distinct inRest ((List.mem_cons.1 alsoPresent).resolve_left otherFirst)]

namespace Graph.Plans

variable {graph : Graph} {pipeline : Pipeline}

theorem mem_wave_ids {place : Nat} (inside : place < graph.waves.length) :
    nodeIds graph.waves[place] ∈ graph.waveIds :=
  List.mem_map_of_mem (List.getElem_mem inside)

theorem sibling_before_iff (plans : graph.Plans pipeline) {id other : String} {place : Nat}
    (placed : graph.waveOf id = some place) (sibling : graph.waveOf other = some place) :
    other ∈ graph.planIds.takeWhile (fun planned => planned ≠ id) ↔
      other ∈ pipeline.stepIds.takeWhile fun declared => declared ≠ id := by
  obtain ⟨inside, inWave⟩ := wave_at_place placed
  obtain ⟨_, alsoInWave⟩ := wave_at_place sibling
  have isWave : nodeIds graph.waves[place] ∈ graph.waveIds := mem_wave_ids inside
  have inPlan : (nodeIds graph.waves[place]).Sublist graph.planIds :=
    List.sublist_flatten_of_mem isWave
  rw [← mem_take_while_of_sublist inPlan plans.plan_ids_nodup inWave alsoInWave,
    mem_take_while_of_sublist (plans.wave_ids_sublist _ isWave) plans.distinct inWave alsoInWave]

theorem not_before_of_later (plans : graph.Plans pipeline) {id other : String}
    {place otherPlace : Nat} (placed : graph.waveOf id = some place)
    (otherPlaced : graph.waveOf other = some otherPlace) (later : place < otherPlace) :
    other ∉ graph.planIds.takeWhile fun planned => planned ≠ id := by
  intro before
  have split := (List.take_append_drop (place + 1) graph.waves).symm
  have early := plans.mem_first_waves_of_before split
    (mem_first_waves_of_place placed (Nat.lt_succ_self place)) before
  obtain ⟨inside, _⟩ := wave_at_place otherPlaced
  obtain ⟨wave, rest, behind⟩ : ∃ wave rest, graph.waves.drop (place + 1) = wave :: rest :=
    List.exists_cons_of_ne_nil (by simpa using by omega)
  obtain ⟨earlier, below, earlierPlaced⟩ := plans.wave_of_earlier (behind ▸ split) early
  rw [otherPlaced, Option.some.injEq] at earlierPlaced
  rw [List.length_take] at below
  omega

/-- Of the steps of its own wave and of later ones a condition sees only the skips of the
siblings that are declared before its step. -/
theorem seen_of_not_earlier (plans : graph.Plans pipeline)
    (results : String → Option StepResult) {id other : String} {place otherPlace : Nat}
    (placed : graph.waveOf id = some place) (otherPlaced : graph.waveOf other = some otherPlace)
    (notEarlier : place ≤ otherPlace) :
    graph.outcomesSeenBy results id other =
      if otherPlace = place ∧ other ∈ pipeline.stepIds.takeWhile (fun declared => declared ≠ id) ∧
        outcomeIn results other = some .skipped then some .skipped else none := by
  rw [Graph.outcomesSeenBy, outcomeIn]
  rcases Nat.lt_or_eq_of_le notEarlier with later | same
  · have notBefore := plans.not_before_of_later placed otherPlaced later
    rw [if_neg fun isSibling => Nat.ne_of_gt later isSibling.1]
    cases results other <;> simp only [notBefore, false_and, if_false]
  · subst same
    cases found : results other with
    | none => simp
    | some result =>
        simp only [plans.sibling_before_iff placed otherPlaced, placed, otherPlaced, ne_eq,
          not_true_eq_false, false_or, true_and, Option.map_some, Option.some.injEq]
        split
        · rename_i visible
          rw [visible.2]
        · rfl

end Graph.Plans

namespace CompiledPipeline

variable {State : Type}

def atTurn (compiled : CompiledPipeline) (surroundings : Surroundings State)
    (identifier : RunIdentifier) (state : State) (id : String) : RunProgress :=
  match compiled.graph.waveOf id with
  | none => compiled.started identifier
  | some place =>
      let wave := compiled.graph.waves.getD place []
      let reached := compiled.atWave surroundings identifier state place
      let before := (compiled.waveSteps wave).takeWhile fun step => step.id ≠ id
      (compiled.resolveWave (reached.1.announce (.waveStarted place (nodeIds wave))) before).1

theorem at_wave_succ (compiled : CompiledPipeline) (surroundings : Surroundings State)
    (identifier : RunIdentifier) (state : State) {index : Nat}
    (inside : index < compiled.graph.waves.length) :
    compiled.atWave surroundings identifier state (index + 1) =
      let reached := compiled.atWave surroundings identifier state index
      compiled.runWave surroundings index compiled.graph.waves[index] reached.1 reached.2 := by
  rw [atWave, List.take_succ_eq_append_getElem inside, compiled.after_waves_append,
    List.length_take_of_le (Nat.le_of_lt inside), Nat.zero_add]
  rfl

variable {compiled : CompiledPipeline} {surroundings : Surroundings State}
  {endings : StepEndings} {identifier : RunIdentifier} {state : State} {count : Nat}

theorem at_turn_eq (plans : compiled.graph.Plans compiled.pipeline) {step : Step} {place : Nat}
    (placed : compiled.graph.waveOf step.id = some place)
    (inside : place < compiled.graph.waves.length) {before later : List Step}
    (splitSteps : compiled.waveSteps compiled.graph.waves[place] = before ++ step :: later)
    (stepIds : (compiled.waveSteps compiled.graph.waves[place]).map Step.id =
      nodeIds compiled.graph.waves[place]) :
    compiled.atTurn surroundings identifier state step.id =
      (compiled.resolveWave ((compiled.atWave surroundings identifier state place).1.announce
        (.waveStarted place (nodeIds compiled.graph.waves[place]))) before).1 := by
  have distinct := (plans.wave_ids_sublist _ (Graph.Plans.mem_wave_ids inside)).nodup plans.distinct
  rw [← stepIds, splitSteps] at distinct
  rw [atTurn, placed]
  simp only [List.getD_eq_getElem _ _ inside]
  rw [splitSteps, take_while_distinct Step.id distinct]

theorem report_result_of_over (plans : compiled.graph.Plans compiled.pipeline)
    (leaves : surroundings.LeavesResults endings)
    (stops : compiled.StopsAfter surroundings identifier state count) {index : Nat}
    (ran : index ≤ count) {id : String}
    (done : id ∈ nodeIds (compiled.graph.waves.take index).flatten) :
    (compiled.run surroundings identifier state).report.result? id =
      (compiled.atWave surroundings identifier state index).1.resultOf id := by
  have inRan : id ∈ nodeIds (compiled.graph.waves.take count).flatten :=
    ((List.take_sublist_take_left ran).flatten.map GraphNode.id).subset done
  have recorded := (waves_done_at_wave plans leaves identifier state index).ids.mem_iff.2 done
  have extended := compiled.at_wave_extends surroundings identifier state ran
  rw [report_result_of_ran plans leaves stops inRan,
    RunProgress.result_of_prefix extended.recorded recorded]

theorem outcomes_at_turn (plans : compiled.graph.Plans compiled.pipeline)
    (leaves : surroundings.LeavesResults endings)
    (stops : compiled.StopsAfter surroundings identifier state count) {step : Step}
    (member : step ∈ compiled.pipeline.steps) {place : Nat}
    (placed : compiled.graph.waveOf step.id = some place) (ran : place < count) :
    (compiled.atTurn surroundings identifier state step.id).outcomes =
      compiled.graph.outcomesSeenBy
        (compiled.run surroundings identifier state).report.result? step.id := by
  obtain ⟨inside, inWave⟩ := Graph.Plans.wave_at_place placed
  have split : compiled.graph.waves = compiled.graph.waves.take place ++
      compiled.graph.waves[place] :: compiled.graph.waves.drop (place + 1) := by simp
  have splitNext := (List.take_append_drop (place + 1) compiled.graph.waves).symm
  obtain ⟨before, later, splitSteps⟩ := List.append_of_mem (mem_wave_steps plans member inWave)
  have stepIds := wave_steps_ids_of_split plans split
  have splitWave : nodeIds compiled.graph.waves[place] =
      before.map Step.id ++ step.id :: later.map Step.id := by
    rw [← stepIds, splitSteps, List.map_append, List.map_cons]
  have start := (waves_done_at_wave plans leaves identifier state place).ids
  have ended := (waves_done_at_wave plans leaves identifier state (place + 1)).ids
  have completes := compiled.run_wave_completes leaves place compiled.graph.waves[place]
    (compiled.atWave surroundings identifier state place).1
    (compiled.atWave surroundings identifier state place).2
  rw [← at_wave_succ compiled surroundings identifier state inside] at completes
  -- The wave of the step only adds to what the turn has, so the turn can be read off its end.
  have isTurn := completes.is_turn start (ended.nodup_iff.2 (plans.first_waves_nodup splitNext))
    splitSteps
  have own : step.id ∈ nodeIds (compiled.graph.waves.take (place + 1)).flatten :=
    Graph.Plans.mem_first_waves_of_place placed (Nat.lt_succ_self place)
  rw [at_turn_eq plans placed inside splitSteps stepIds]
  refine (isTurn.outcomes_eq_seen plans split splitWave).trans ?_
  exact (plans.outcomes_seen_congr splitNext own fun known done =>
    report_result_of_over plans leaves stops ran done).symm

end CompiledPipeline

/-- What the condition of `step` in the wave `place` makes of the steps of its own wave and of
later waves. `seen` are the outcomes for which it is evaluated. -/
structure SeesSkippedSiblings (pipeline : Pipeline) (graph : Graph)
    (results : String → Option StepResult) (seen : Outcomes) (step : Step) (place : Nat) :
    Prop where
  decides : ¬pipeline.HasFailedAncestor results step.id →
    (results step.id = some (.skipped step.id SkipReason.conditionFalse) ↔
      pipeline.ConditionFails step seen)
  later : ∀ other otherPlace, graph.waveOf other = some otherPlace → place < otherPlace →
    seen other = none
  siblings : ∀ other, graph.waveOf other = some place →
    seen other =
      if other ∈ pipeline.stepIds.takeWhile (fun declared => declared ≠ step.id) ∧
        outcomeIn results other = some .skipped then some .skipped else none
  checks : ∀ other otherPlace, graph.waveOf other = some otherPlace → place ≤ otherPlace →
    ∀ environment, (Condition.stepIs other .success).evaluate environment seen = false ∧
      (Condition.stepIs other .failed).evaluate environment seen = false ∧
      ((Condition.stepIs other .skipped).evaluate environment seen = true ↔
        otherPlace = place ∧
          other ∈ pipeline.stepIds.takeWhile (fun declared => declared ≠ step.id) ∧
          outcomeIn results other = some .skipped)

/-- In an uninterrupted run the condition of a step is evaluated as if no step of its own or a
later wave had an outcome, except for the siblings before its step that are skipped. -/
theorem conditions_see_skipped_siblings {pipeline : Pipeline} {compiled : CompiledPipeline}
    (compiles : CompiledPipeline.compile pipeline = .ok compiled) {endings : StepEndings}
    {State : Type} {surroundings : Surroundings State}
    (uninterrupted : surroundings.IsUninterrupted) (finishes : surroundings.FinishesAs endings)
    (identifier : RunIdentifier) (state : State) {step : Step} (member : step ∈ pipeline.steps)
    {place : Nat} (placed : compiled.graph.waveOf step.id = some place) :
    SeesSkippedSiblings pipeline compiled.graph
      (compiled.run surroundings identifier state).report.result?
      (compiled.atTurn surroundings identifier state step.id).outcomes step place := by
  have plans := CompiledPipeline.compile_plans compiles
  have samePipeline := (CompiledPipeline.compile_parts compiles).1
  subst samePipeline
  have leaves := Surroundings.leaves_results_of_finishes finishes
  have stops := CompiledPipeline.stops_after_all
    (compiled.goes_on_of_uninterrupted uninterrupted identifier state)
  obtain ⟨inside, _⟩ := Graph.Plans.wave_at_place placed
  obtain ⟨progress, done, report⟩ :=
    CompiledPipeline.run_leaves_done plans uninterrupted leaves identifier state
  rw [CompiledPipeline.outcomes_at_turn plans leaves stops member placed inside]
  have seen (other : String) (otherPlace : Nat)
      (otherPlaced : compiled.graph.waveOf other = some otherPlace)
      (notEarlier : place ≤ otherPlace) :=
    plans.seen_of_not_earlier (compiled.run surroundings identifier state).report.result? placed
      otherPlaced notEarlier
  constructor
  case decides =>
    rw [report]
    exact (done.follows_cascade compiles member).conditionFalse
  case later =>
    intro other otherPlace otherPlaced later
    rw [seen other otherPlace otherPlaced (Nat.le_of_lt later), if_neg]
    exact fun isSibling => Nat.ne_of_gt later isSibling.1
  case siblings =>
    intro other sibling
    simpa only [true_and] using seen other place sibling (Nat.le_refl place)
  case checks =>
    intro other otherPlace otherPlaced notEarlier environment
    simp only [Condition.evaluate, seen other otherPlace otherPlaced notEarlier]
    by_cases shows : otherPlace = place ∧
        other ∈ compiled.pipeline.stepIds.takeWhile (fun declared => declared ≠ step.id) ∧
          outcomeIn (compiled.run surroundings identifier state).report.result? other =
            some .skipped
    · rw [if_pos shows]
      exact ⟨by decide, by decide, iff_of_true (by decide) shows⟩
    · rw [if_neg shows]
      exact ⟨by decide, by decide, iff_of_false (by decide) shows⟩

def siblingPipeline : Pipeline :=
  { name := "siblings"
    description := ""
    steps :=
      [⟨"early", "early", .custom "mock" {}, [], {}, some "off skipped"⟩,
        ⟨"off", "off", .custom "mock" {}, [], {}, some "false"⟩,
        ⟨"late", "late", .custom "mock" {}, [], {}, some "off skipped"⟩]
    environment := {} }

theorem sibling_pipeline_conditions :
    ∃ compiled, CompiledPipeline.compile siblingPipeline = .ok compiled ∧
      ∀ step ∈ siblingPipeline.steps, compiled.graph.waveOf step.id = some 0 ∧
        SeesSkippedSiblings siblingPipeline compiled.graph
          (compiled.run (lastFirst lintFails) .zero ()).report.result?
          (compiled.atTurn (lastFirst lintFails) .zero () step.id).outcomes step 0 := by
  have accepted : ∃ compiled, CompiledPipeline.compile siblingPipeline = .ok compiled ∧
      (siblingPipeline.steps.map fun step => compiled.graph.waveOf step.id) =
        [some 0, some 0, some 0] :=
    ⟨_, by cbv, by cbv⟩
  obtain ⟨compiled, compiles, places⟩ := accepted
  refine ⟨compiled, compiles, fun step member => ?_⟩
  have placed : compiled.graph.waveOf step.id = some 0 := by
    have listed := List.mem_map_of_mem (f := fun step => compiled.graph.waveOf step.id) member
    rw [places] at listed
    simpa using listed
  have carries : (lastFirst lintFails).CarriesOut lintFails := fun _ _ => List.reverse_perm _
  exact ⟨placed, conditions_see_skipped_siblings compiles (fun _ _ => rfl)
    (Surroundings.finishes_of_carries_out carries) .zero () member placed⟩

/-- A sibling that is skipped does show, so the order of declaration matters within a wave. -/
theorem skipped_sibling_shows :
    ∃ compiled, CompiledPipeline.compile siblingPipeline = .ok compiled ∧
      compiled.graph.waveIds = [["early", "off", "late"]] ∧
      compiled.graph.waveOf "off" = compiled.graph.waveOf "late" ∧
      Condition.parse "off skipped" = .ok (.stepIs "off" .skipped) ∧
      (Condition.stepIs "off" .skipped).evaluate {}
        (compiled.atTurn (lastFirst lintFails) .zero () "late").outcomes = true ∧
      (compiled.run (lastFirst lintFails) .zero ()).report.results.map
          (fun result => (result.stepId, result.outcome)) =
        [("early", .skipped), ("off", .skipped), ("late", .success)] :=
  ⟨_, by cbv, by cbv, by cbv, by cbv, by cbv, by cbv⟩

end PipelineWaves
