import PipelineWaves.Proofs.Run.Completeness

/-!
# The trace of a run

What a run announces follows a grammar: the start of the run, then the waves that it
carries out, one after the other, then the interruption and the steps that it leaves, and
the end of the run at last. Within a wave every step is skipped or started, in order of
declaration, and then every started step ends. So no step starts before all steps of the
earlier waves have ended, and every step of the plan ends once, as the report says.
-/

set_option autoImplicit false

namespace PipelineWaves

namespace RunEvent

def startedStep? : RunEvent → Option String
  | .stepStarted step => some step
  | _ => none

/-- The step that an event ends, and how it ends it. -/
def stepEnd? : RunEvent → Option (String × StepOutcome)
  | .stepSkipped step _ => some (step, .skipped)
  | .stepSucceeded step _ => some (step, .success)
  | .stepFailed step _ _ => some (step, .failed)
  | _ => none

/-- What is announced of a step when its wave resolves it. -/
inductive Opens : String → RunEvent → Prop
  | skipped (step reason : String) : Opens step (.stepSkipped step reason)
  | started (step : String) : Opens step (.stepStarted step)

/-- What is announced of a started step when it finishes. -/
inductive Closes : String → RunEvent → Prop
  | succeeded (step : String) (duration : Duration) : Closes step (.stepSucceeded step duration)
  | failed (step error stderr : String) : Closes step (.stepFailed step error stderr)

end RunEvent

def startedSteps (events : List RunEvent) : List String :=
  events.filterMap RunEvent.startedStep?

def stepEnds (events : List RunEvent) : List (String × StepOutcome) :=
  events.filterMap RunEvent.stepEnd?

def endedSteps (events : List RunEvent) : List String := (stepEnds events).map Prod.fst

/-- What a wave announces: each of its steps is skipped or started, in order, and then each
started step ends, in any order. -/
inductive WaveTrace (index : Nat) (ids : List String) : List RunEvent → Prop
  | mk {opening closing : List RunEvent} {finishing : List String}
      (opens : List.Forall₂ RunEvent.Opens ids opening)
      (closes : List.Forall₂ RunEvent.Closes finishing closing)
      (allEnd : finishing.Perm (startedSteps opening)) :
      WaveTrace index ids (.waveStarted index ids :: (opening ++ closing ++ [.waveCompleted index]))

inductive WavesTrace : Nat → List (List String) → List RunEvent → Prop
  | nil (index : Nat) : WavesTrace index [] []
  | cons {index : Nat} {ids : List String} {rest : List (List String)}
      {first later : List RunEvent} (wave : WaveTrace index ids first)
      (waves : WavesTrace (index + 1) rest later) : WavesTrace index (ids :: rest) (first ++ later)

@[simp]
theorem started_steps_append (left right : List RunEvent) :
    startedSteps (left ++ right) = startedSteps left ++ startedSteps right :=
  List.filterMap_append

@[simp]
theorem step_ends_append (left right : List RunEvent) :
    stepEnds (left ++ right) = stepEnds left ++ stepEnds right :=
  List.filterMap_append

@[simp]
theorem ended_steps_append (left right : List RunEvent) :
    endedSteps (left ++ right) = endedSteps left ++ endedSteps right := by
  simp [endedSteps]

theorem mem_started_steps {step : String} {events : List RunEvent} :
    step ∈ startedSteps events ↔ .stepStarted step ∈ events := by
  rw [startedSteps, List.mem_filterMap]
  constructor
  · rintro ⟨event, member, started⟩
    cases event <;> simp only [RunEvent.startedStep?, reduceCtorEq, Option.some.injEq] at started
    exact started ▸ member
  · exact fun member => ⟨_, member, rfl⟩

theorem filter_map_of_forall₂ {Item Event Kept : Type} {relation : Item → Event → Prop}
    (kept : Event → Option Kept) {items : List Item} {events : List Event}
    (dropped : ∀ item event, relation item event → kept event = none)
    (each : List.Forall₂ relation items events) : events.filterMap kept = [] := by
  induction each with
  | nil => rfl
  | cons first _ induction => rw [List.filterMap_cons_none (dropped _ _ first), induction]

theorem opens_ends_or_starts {ids : List String} {opening : List RunEvent}
    (opens : List.Forall₂ RunEvent.Opens ids opening) :
    ∀ id ∈ ids, id ∈ endedSteps opening ∨ id ∈ startedSteps opening := by
  induction opens with
  | nil => simp
  | cons first _ induction =>
      intro id member
      rcases List.mem_cons.1 member with rfl | later
      · cases first with
        | skipped => exact Or.inl List.mem_cons_self
        | started => exact Or.inr List.mem_cons_self
      · rw [← List.singleton_append, ended_steps_append, started_steps_append, List.mem_append,
          List.mem_append]
        exact (induction id later).imp Or.inr Or.inr

theorem opens_started_sublist {ids : List String} {opening : List RunEvent}
    (opens : List.Forall₂ RunEvent.Opens ids opening) : (startedSteps opening).Sublist ids := by
  induction opens with
  | nil => exact .slnil
  | cons first _ induction =>
      cases first with
      | skipped => exact induction.cons _
      | started => exact induction.cons_cons _

theorem closes_ended {finishing : List String} {closing : List RunEvent}
    (closes : List.Forall₂ RunEvent.Closes finishing closing) :
    endedSteps closing = finishing := by
  induction closes with
  | nil => rfl
  | cons first _ induction => cases first <;> exact congrArg (_ :: ·) induction

theorem closes_started {finishing : List String} {closing : List RunEvent}
    (closes : List.Forall₂ RunEvent.Closes finishing closing) : startedSteps closing = [] :=
  filter_map_of_forall₂ _ (fun _ _ first => by cases first <;> rfl) closes

namespace WaveTrace

variable {index : Nat} {ids : List String} {events : List RunEvent}

/-- All steps of a wave end before the wave does. -/
theorem all_end (trace : WaveTrace index ids events) : ∀ id ∈ ids, id ∈ endedSteps events := by
  obtain ⟨opens, closes, allEnd⟩ := trace
  rename_i opening closing finishing
  intro id member
  have inside : id ∈ endedSteps (opening ++ closing) := by
    rw [ended_steps_append, List.mem_append, closes_ended closes, allEnd.mem_iff]
    exact opens_ends_or_starts opens id member
  have grows : (opening ++ closing).Sublist
      (.waveStarted index ids :: (opening ++ closing ++ [.waveCompleted index])) :=
    (List.sublist_append_left _ _).cons _
  exact ((grows.filterMap _).map _).subset inside

theorem started_mem (trace : WaveTrace index ids events) {id : String}
    (started : .stepStarted id ∈ events) : id ∈ ids := by
  obtain ⟨opens, closes, allEnd⟩ := trace
  rename_i opening closing finishing
  have inside : .stepStarted id ∈ opening ++ closing := by simpa using started
  rw [← mem_started_steps, started_steps_append, closes_started closes, List.append_nil] at inside
  exact (opens_started_sublist opens).subset inside

end WaveTrace

theorem append_eq_append_cons {Item : Type} {left right before after : List Item} {item : Item}
    (split : left ++ right = before ++ item :: after) :
    (∃ rest, left = before ++ item :: rest) ∨
      ∃ rest, before = left ++ rest ∧ right = rest ++ item :: after := by
  rcases List.append_eq_append_iff.1 split with ⟨rest, longer, same⟩ | ⟨rest, longer, same⟩
  · exact Or.inr ⟨rest, longer, same⟩
  · cases rest with
    | nil => exact Or.inr ⟨[], by simpa using longer.symm, same.symm⟩
    | cons first rest =>
        rw [List.cons_append, List.cons.injEq] at same
        exact Or.inl ⟨rest, same.1 ▸ longer⟩

/-- When a step starts, all steps of the waves before its own have ended. -/
theorem WavesTrace.barrier {index : Nat} {waves : List (List String)} {events : List RunEvent}
    (traces : WavesTrace index waves events) {id : String} {before after : List RunEvent}
    (split : events = before ++ .stepStarted id :: after) :
    ∃ earlier wave later, waves = earlier ++ wave :: later ∧ id ∈ wave ∧
      ∀ other ∈ earlier.flatten, other ∈ endedSteps before := by
  induction traces generalizing before with
  | nil => simp at split
  | cons wave _ induction =>
      rename_i ids rest first later _
      rcases append_eq_append_cons split with ⟨more, here⟩ | ⟨more, longer, later⟩
      · have started : id ∈ ids := wave.started_mem (here ▸ by simp)
        exact ⟨[], ids, rest, rfl, started, by simp⟩
      · obtain ⟨earlier, own, behind, same, inside, ended⟩ := induction later
        refine ⟨ids :: earlier, own, behind, congrArg (ids :: ·) same, inside, ?_⟩
        intro other member
        rw [longer, ended_steps_append, List.mem_append]
        exact (List.mem_append.1 member).imp (wave.all_end other) (ended other)

namespace RunProgress

@[simp]
theorem events_announce (progress : RunProgress) (event : RunEvent) :
    (progress.announce event).events = progress.events ++ [event] := rfl

@[simp]
theorem events_skip (progress : RunProgress) (id reason : String) :
    (progress.skip id reason).events = progress.events ++ [.stepSkipped id reason] := rfl

end RunProgress

/-- The ends announced are those of the recorded results. -/
def RunProgress.AnnouncesEnds (progress : RunProgress) : Prop :=
  stepEnds progress.events =
    progress.recorded.map fun result => (result.stepId, result.outcome)

namespace RunProgress.AnnouncesEnds

variable {progress : RunProgress}

theorem announce (announces : progress.AnnouncesEnds) {event : RunEvent}
    (noEnd : event.stepEnd? = none) : (progress.announce event).AnnouncesEnds := by
  rw [AnnouncesEnds, RunProgress.events_announce, step_ends_append, announces]
  simp [stepEnds, noEnd]

theorem skip (announces : progress.AnnouncesEnds) (id reason : String) :
    (progress.skip id reason).AnnouncesEnds := by
  rw [AnnouncesEnds, RunProgress.events_skip, RunProgress.recorded_skip, step_ends_append,
    announces, List.map_append]
  rfl

theorem skip_all (announces : progress.AnnouncesEnds) (ids : List String) (reason : String) :
    (ids.foldl (fun progress id => progress.skip id reason) progress).AnnouncesEnds := by
  induction ids generalizing progress with
  | nil => exact announces
  | cons id rest induction => exact induction (announces.skip id reason)

theorem settle (announces : progress.AnnouncesEnds) {result : StepResult}
    (decided : result.outcome ≠ .skipped) : (progress.settle result).AnnouncesEnds := by
  rw [AnnouncesEnds, RunProgress.settle, RunProgress.record, RunProgress.announce,
    step_ends_append, announces, List.map_append]
  cases ended : result.outcome with
  | skipped => exact absurd ended decided
  | success => simp [StepResult.isFailed, ended, stepEnds, RunEvent.stepEnd?]
  | failed => simp [StepResult.isFailed, ended, stepEnds, RunEvent.stepEnd?]

theorem settle_all (announces : progress.AnnouncesEnds) {results : List StepResult}
    (decided : ∀ result ∈ results, result.outcome ≠ .skipped) :
    (results.foldl RunProgress.settle progress).AnnouncesEnds := by
  induction results generalizing progress with
  | nil => exact announces
  | cons result rest induction =>
      exact induction (announces.settle (decided result List.mem_cons_self))
        fun other later => decided other (List.mem_cons_of_mem _ later)

theorem leave (announces : progress.AnnouncesEnds) (waves : List (List GraphNode)) :
    (progress.leave waves).AnnouncesEnds := by
  cases waves with
  | nil => exact announces
  | cons wave rest =>
      refine skip_all ?_ _ _
      exact announces.announce rfl

end RunProgress.AnnouncesEnds

theorem settle_all_closes (progress : RunProgress) (results : List StepResult) :
    ∃ closing, (results.foldl RunProgress.settle progress).events = progress.events ++ closing ∧
      List.Forall₂ RunEvent.Closes (results.map StepResult.stepId) closing := by
  induction results generalizing progress with
  | nil => exact ⟨[], by simp, .nil⟩
  | cons result rest induction =>
      obtain ⟨closing, grows, closes⟩ := induction (progress.settle result)
      have first : ∃ event, (progress.settle result).events = progress.events ++ [event] ∧
          RunEvent.Closes result.stepId event := by
        by_cases failed : result.isFailed = true
        · exact ⟨_, by rw [RunProgress.settle, if_pos failed]; rfl, .failed _ _ _⟩
        · exact ⟨_, by rw [RunProgress.settle, if_neg failed]; rfl, .succeeded _ _⟩
      obtain ⟨event, announced, ends⟩ := first
      refine ⟨event :: closing, ?_, .cons ends closes⟩
      rw [List.foldl_cons, grows, announced, List.append_assoc, List.singleton_append]

namespace CompiledPipeline

theorem resolve_wave_opens (compiled : CompiledPipeline) (progress : RunProgress)
    (steps : List Step) :
    ∃ opening, (compiled.resolveWave progress steps).1.events = progress.events ++ opening ∧
      List.Forall₂ RunEvent.Opens (steps.map Step.id) opening ∧
      startedSteps opening = dispatchIds (compiled.resolveWave progress steps).2 := by
  induction steps generalizing progress with
  | nil => exact ⟨[], by simp [resolveWave], .nil, rfl⟩
  | cons step rest induction =>
      have skipping : ∀ reason,
          let resolved := compiled.resolveWave (progress.skip step.id reason) rest
          ∃ opening, resolved.1.events = progress.events ++ opening ∧
            List.Forall₂ RunEvent.Opens (step.id :: rest.map Step.id) opening ∧
            startedSteps opening = dispatchIds resolved.2 := by
        intro reason resolved
        obtain ⟨opening, grows, opens, started⟩ := induction (progress.skip step.id reason)
        refine ⟨.stepSkipped step.id reason :: opening, ?_, .cons (.skipped _ _) opens, started⟩
        simp [resolved, grows]
      simp only [resolveWave, List.map_cons]
      cases compiled.resolve progress step with
      | blocked failed => exact skipping _
      | conditionFalse => exact skipping _
      | dispatched =>
          obtain ⟨opening, grows, opens, started⟩ :=
            induction (progress.announce (.stepStarted step.id))
          refine ⟨.stepStarted step.id :: opening, ?_, .cons (.started _) opens, ?_⟩
          · simp [grows]
          · exact congrArg (step.id :: ·) started

theorem resolve_wave_announces (compiled : CompiledPipeline) {progress : RunProgress}
    (announces : progress.AnnouncesEnds) (steps : List Step) :
    (compiled.resolveWave progress steps).1.AnnouncesEnds := by
  induction steps generalizing progress with
  | nil => exact announces
  | cons step rest induction =>
      simp only [resolveWave]
      cases compiled.resolve progress step with
      | blocked failed => exact induction (announces.skip _ _)
      | conditionFalse => exact induction (announces.skip _ _)
      | dispatched => exact induction (announces.announce rfl)

/-- A wave announces its start, what becomes of its steps, how the started steps end and that
it is complete. -/
theorem run_wave_events {State : Type} (compiled : CompiledPipeline)
    (surroundings : Surroundings State) (index : Nat) (wave : List GraphNode)
    (progress : RunProgress) (state : State) :
    let resolved := compiled.resolveWave (progress.announce (.waveStarted index (nodeIds wave)))
      (compiled.waveSteps wave)
    let completed := completeResults resolved.2 (surroundings.perform resolved.2 state).1
    ∃ opening closing,
      (compiled.runWave surroundings index wave progress state).1.events = progress.events ++
        (.waveStarted index (nodeIds wave) :: (opening ++ closing ++ [.waveCompleted index])) ∧
      List.Forall₂ RunEvent.Opens ((compiled.waveSteps wave).map Step.id) opening ∧
      startedSteps opening = dispatchIds resolved.2 ∧
      List.Forall₂ RunEvent.Closes (completed.map StepResult.stepId) closing := by
  intro resolved completed
  obtain ⟨opening, opened, opens, started⟩ := compiled.resolve_wave_opens
    (progress.announce (.waveStarted index (nodeIds wave))) (compiled.waveSteps wave)
  obtain ⟨closing, closed, closes⟩ := settle_all_closes resolved.1 completed
  refine ⟨opening, closing, ?_, opens, started, closes⟩
  have events : (compiled.runWave surroundings index wave progress state).1.events =
      (completed.foldl RunProgress.settle resolved.1).events ++ [.waveCompleted index] := rfl
  rw [events, closed, opened, progress.events_announce]
  simp only [List.append_assoc, List.cons_append, List.nil_append]

section Waves

variable {State : Type} {compiled : CompiledPipeline} {surroundings : Surroundings State}
  {endings : StepEndings}

theorem run_wave_traces (plans : compiled.graph.Plans compiled.pipeline)
    (leaves : surroundings.LeavesResults endings) {done rest : List (List GraphNode)}
    {wave : List GraphNode} (split : compiled.graph.waves = done ++ wave :: rest) (index : Nat)
    (progress : RunProgress) (state : State) :
    ∃ traced, (compiled.runWave surroundings index wave progress state).1.events =
        progress.events ++ traced ∧ WaveTrace index (nodeIds wave) traced := by
  obtain ⟨opening, closing, grows, opens, started, closes⟩ :=
    compiled.run_wave_events surroundings index wave progress state
  rw [wave_steps_ids_of_split plans split] at opens
  refine ⟨_, grows, .mk opens closes ?_⟩
  have ended := (leaves (compiled.resolveWave
    (progress.announce (.waveStarted index (nodeIds wave))) (compiled.waveSteps wave)).2
    state).map StepResult.stepId
  simpa [started, endings.result_step_id, dispatchIds, Function.comp_def] using ended

theorem run_wave_announces (leaves : surroundings.LeavesResults endings) (index : Nat)
    (wave : List GraphNode) {progress : RunProgress} (announces : progress.AnnouncesEnds)
    (state : State) :
    (compiled.runWave surroundings index wave progress state).1.AnnouncesEnds := by
  let start := progress.announce (.waveStarted index (nodeIds wave))
  let resolved := compiled.resolveWave start (compiled.waveSteps wave)
  let completed := completeResults resolved.2 (surroundings.perform resolved.2 state).1
  have opened : resolved.1.AnnouncesEnds :=
    compiled.resolve_wave_announces (announces.announce rfl) (compiled.waveSteps wave)
  have decided : ∀ result ∈ completed, result.outcome ≠ .skipped := by
    intro result member
    obtain ⟨dispatch, _, rfl⟩ := List.mem_map.1 ((leaves resolved.2 state).mem_iff.1 member)
    exact endings.result_not_skipped dispatch.step.id
  exact (opened.settle_all decided).announce rfl

theorem after_waves_traces (plans : compiled.graph.Plans compiled.pipeline)
    (leaves : surroundings.LeavesResults endings) {done waves rest : List (List GraphNode)}
    (split : compiled.graph.waves = done ++ waves ++ rest) (index : Nat)
    (progress : RunProgress) (state : State) :
    ∃ traced, (compiled.afterWaves surroundings index waves progress state).1.events =
        progress.events ++ traced ∧ WavesTrace index (waves.map nodeIds) traced := by
  induction waves generalizing done index progress state with
  | nil => exact ⟨[], by simp [afterWaves], .nil index⟩
  | cons wave waves induction =>
      have splitWave : compiled.graph.waves = done ++ wave :: (waves ++ rest) := by simp [split]
      have splitRest : compiled.graph.waves = (done ++ [wave]) ++ waves ++ rest := by simp [split]
      obtain ⟨first, grows, traced⟩ := run_wave_traces plans leaves splitWave index progress state
      obtain ⟨later, growsOn, tracedLater⟩ := induction splitRest (index + 1)
        (compiled.runWave surroundings index wave progress state).1
        (compiled.runWave surroundings index wave progress state).2
      refine ⟨first ++ later, ?_, .cons traced tracedLater⟩
      rw [afterWaves, growsOn, grows, List.append_assoc]

theorem after_waves_announces (leaves : surroundings.LeavesResults endings)
    (waves : List (List GraphNode)) (index : Nat) {progress : RunProgress}
    (announces : progress.AnnouncesEnds) (state : State) :
    (compiled.afterWaves surroundings index waves progress state).1.AnnouncesEnds := by
  induction waves generalizing index progress state with
  | nil => exact announces
  | cons wave rest induction =>
      exact induction (index + 1) (run_wave_announces leaves index wave announces state) _

end Waves

end CompiledPipeline

/-- Nothing that was recorded or announced is taken back. -/
structure RunProgress.Extends (later earlier : RunProgress) : Prop where
  recorded : earlier.recorded <+: later.recorded
  events : earlier.events <+: later.events

namespace CompiledPipeline

variable {State : Type}

theorem run_wave_extends (compiled : CompiledPipeline) (surroundings : Surroundings State)
    (index : Nat) (wave : List GraphNode) (progress : RunProgress) (state : State) :
    (compiled.runWave surroundings index wave progress state).1.Extends progress := by
  let start := progress.announce (.waveStarted index (nodeIds wave))
  let resolved := compiled.resolveWave start (compiled.waveSteps wave)
  let completed := completeResults resolved.2 (surroundings.perform resolved.2 state).1
  obtain ⟨skips, skipped, _⟩ := compiled.resolve_wave_splits start (compiled.waveSteps wave)
  obtain ⟨_, _, events, _⟩ := compiled.run_wave_events surroundings index wave progress state
  have recorded : (compiled.runWave surroundings index wave progress state).1.recorded =
      progress.recorded ++ (skips ++ completed) := by
    rw [← List.append_assoc, ← progress.recorded_announce, ← skipped]
    exact RunProgress.recorded_settle_all _ _
  exact ⟨⟨_, recorded.symm⟩, ⟨_, events.symm⟩⟩

theorem after_waves_extends (compiled : CompiledPipeline) (surroundings : Surroundings State)
    (waves : List (List GraphNode)) (index : Nat) (progress : RunProgress) (state : State) :
    (compiled.afterWaves surroundings index waves progress state).1.Extends progress := by
  induction waves generalizing index progress state with
  | nil => exact ⟨List.prefix_rfl, List.prefix_rfl⟩
  | cons wave rest induction =>
      have first := compiled.run_wave_extends surroundings index wave progress state
      have later := induction (index + 1)
        (compiled.runWave surroundings index wave progress state).1
        (compiled.runWave surroundings index wave progress state).2
      exact ⟨first.recorded.trans later.recorded, first.events.trans later.events⟩

theorem after_waves_append (compiled : CompiledPipeline) (surroundings : Surroundings State)
    (waves more : List (List GraphNode)) (index : Nat) (progress : RunProgress) (state : State) :
    compiled.afterWaves surroundings index (waves ++ more) progress state =
      let reached := compiled.afterWaves surroundings index waves progress state
      compiled.afterWaves surroundings (index + waves.length) more reached.1 reached.2 := by
  induction waves generalizing index progress state with
  | nil => rfl
  | cons wave rest induction =>
      simp only [List.cons_append, afterWaves, List.length_cons, induction]
      rw [Nat.add_right_comm, Nat.add_assoc]

theorem at_wave_extends (compiled : CompiledPipeline) (surroundings : Surroundings State)
    (identifier : RunIdentifier) (state : State) {earlier later : Nat}
    (notBehind : earlier ≤ later) :
    (compiled.atWave surroundings identifier state later).1.Extends
      (compiled.atWave surroundings identifier state earlier).1 := by
  have split : compiled.graph.waves.take later =
      compiled.graph.waves.take earlier ++ (compiled.graph.waves.take later).drop earlier := by
    conv_lhs => rw [← List.take_append_drop earlier (compiled.graph.waves.take later)]
    rw [List.take_take, Nat.min_eq_left notBehind]
  rw [atWave, split, compiled.after_waves_append]
  exact compiled.after_waves_extends surroundings _ _ _ _

end CompiledPipeline

/-- The announced `events` of a run that carries out the first `count` waves and ends with
`report`. -/
structure RunReport.IsTraced (report : RunReport) (compiled : CompiledPipeline) (count : Nat)
    (events : List RunEvent) : Prop where
  grammar : ∃ traced, WavesTrace 0 (compiled.graph.waveIds.take count) traced ∧
    events = .runStarted report.identifier compiled.pipeline.name compiled.pipeline.steps.length
      compiled.graph.waveIds.length :: (traced ++ leftEvents (compiled.graph.waveIds.drop count) ++
        [.runCompleted report.identifier report.status])
  declarationOrder : ∀ wave ∈ compiled.graph.waveIds, wave.Sublist compiled.pipeline.stepIds
  barrier : ∀ id before after, events = before ++ .stepStarted id :: after →
    ∀ other place ownPlace, compiled.graph.waveOf other = some place →
      compiled.graph.waveOf id = some ownPlace → place < ownPlace → other ∈ endedSteps before
  everyStepEndsOnce : (endedSteps events).Nodup ∧ (endedSteps events).Perm compiled.pipeline.stepIds
  endsAsReported : (stepEnds events).Perm
    (report.results.map fun result => (result.stepId, result.outcome))

theorem left_events_started (waves : List (List String)) :
    startedSteps (leftEvents waves) = [] := by
  cases waves with
  | nil => rfl
  | cons wave rest =>
      rw [leftEvents, startedSteps, List.filterMap_cons_none rfl, List.filterMap_map,
        List.filterMap_eq_nil_iff]
      exact fun _ _ => rfl

namespace CompiledPipeline

variable {State : Type} {compiled : CompiledPipeline} {surroundings : Surroundings State}
  {endings : StepEndings} {identifier : RunIdentifier} {state : State} {count : Nat}

theorem run_events_grammar (plans : compiled.graph.Plans compiled.pipeline)
    (leaves : surroundings.LeavesResults endings)
    (stops : compiled.StopsAfter surroundings identifier state count) :
    ∃ traced, WavesTrace 0 (compiled.graph.waveIds.take count) traced ∧
      (compiled.run surroundings identifier state).events =
        .runStarted identifier compiled.pipeline.name compiled.pipeline.steps.length
          compiled.graph.waveIds.length ::
            (traced ++ leftEvents (compiled.graph.waveIds.drop count) ++
              [.runCompleted identifier
                (compiled.run surroundings identifier state).report.status]) := by
  have split : compiled.graph.waves =
      ([] ++ compiled.graph.waves.take count) ++ compiled.graph.waves.drop count := by simp
  obtain ⟨traced, grows, traces⟩ := after_waves_traces plans leaves split 0
    (compiled.started identifier) state
  have stepCount : compiled.graph.planIds.length = compiled.pipeline.steps.length := by
    rw [plans.plan_ids_perm.length_eq, Pipeline.stepIds, List.length_map]
  have waveCount : compiled.graph.waveIds.length = compiled.graph.waves.length := by
    rw [Graph.waveIds, List.length_map]
  refine ⟨traced, by rwa [List.map_take] at traces, ?_⟩
  rw [run_events_of_stops stops, atWave, grows, started, stepCount, waveCount]
  simp only [List.cons_append, List.nil_append, List.append_assoc]

/-- A step that starts stands in a wave that is carried out, and all steps of the waves
before that one have ended. -/
theorem run_started (plans : compiled.graph.Plans compiled.pipeline)
    (leaves : surroundings.LeavesResults endings)
    (stops : compiled.StopsAfter surroundings identifier state count) {id : String}
    {before after : List RunEvent}
    (split : (compiled.run surroundings identifier state).events =
      before ++ .stepStarted id :: after) :
    ∃ place < count, compiled.graph.waveOf id = some place ∧
      ∀ other ∈ (compiled.graph.waveIds.take place).flatten, other ∈ endedSteps before := by
  obtain ⟨traced, traces, events⟩ := run_events_grammar plans leaves stops
  rw [events] at split
  cases before with
  | nil => simp at split
  | cons first before =>
      rw [List.cons_append, List.cons.injEq, List.append_assoc] at split
      rcases append_eq_append_cons split.2 with ⟨more, inWaves⟩ | ⟨more, _, behind⟩
      · obtain ⟨earlier, wave, later, splitWaves, inside, ended⟩ := traces.barrier inWaves
        have splitIds : compiled.graph.waveIds =
            earlier ++ wave :: (later ++ compiled.graph.waveIds.drop count) := by
          rw [← List.cons_append, ← List.append_assoc, ← splitWaves, List.take_append_drop]
        have ran := congrArg List.length splitWaves
        simp only [List.length_take, List.length_append, List.length_cons] at ran
        refine ⟨earlier.length, by omega, plans.wave_of_wave_ids splitIds inside, ?_⟩
        rw [splitIds, List.take_left', ← List.singleton_append, ended_steps_append]
        · exact fun other member => List.mem_append_right _ (ended other member)
        · rfl
      · -- Behind the waves nothing starts.
        have started : id ∈ startedSteps (leftEvents (compiled.graph.waveIds.drop count) ++
            [.runCompleted identifier
              (compiled.run surroundings identifier state).report.status]) := by
          rw [mem_started_steps, behind]
          simp
        rw [started_steps_append, left_events_started] at started
        cases started

theorem run_barrier (plans : compiled.graph.Plans compiled.pipeline)
    (leaves : surroundings.LeavesResults endings)
    (stops : compiled.StopsAfter surroundings identifier state count) {id other : String}
    {before after : List RunEvent} {place ownPlace : Nat}
    (split : (compiled.run surroundings identifier state).events =
      before ++ .stepStarted id :: after)
    (placed : compiled.graph.waveOf other = some place)
    (ownPlaced : compiled.graph.waveOf id = some ownPlace) (below : place < ownPlace) :
    other ∈ endedSteps before := by
  obtain ⟨startPlace, _, startPlaced, ended⟩ := run_started plans leaves stops split
  have member := Graph.Plans.mem_first_waves_of_place placed below
  rw [nodeIds, List.map_flatten, List.map_take] at member
  rw [ownPlaced, Option.some.injEq] at startPlaced
  exact ended other (startPlaced ▸ member)

theorem run_ends_perm (plans : compiled.graph.Plans compiled.pipeline)
    (leaves : surroundings.LeavesResults endings)
    (stops : compiled.StopsAfter surroundings identifier state count) :
    (stepEnds (compiled.run surroundings identifier state).events).Perm
      ((compiled.run surroundings identifier state).report.results.map
        fun result => (result.stepId, result.outcome)) := by
  have started : (compiled.started identifier).AnnouncesEnds := rfl
  have announces : (compiled.ended surroundings identifier state).AnnouncesEnds := by
    rw [ended_of_stops stops]
    exact (after_waves_announces leaves _ 0 started state).leave _
  have events : stepEnds (compiled.run surroundings identifier state).events =
      stepEnds (compiled.ended surroundings identifier state).events := by
    refine (step_ends_append _ [RunEvent.runCompleted _ _]).trans ?_
    exact List.append_nil _
  have ids := ended_ids_perm plans leaves stops
  have recorded := ids.filterMap (compiled.ended surroundings identifier state).resultOf
  rw [RunProgress.filter_map_recorded (ids.nodup_iff.2 plans.plan_ids_nodup)] at recorded
  rw [events, announces, compiled.report_results, report_result_eq plans leaves stops]
  exact recorded.map _

end CompiledPipeline

/-- The events of every run follow the grammar, wherever it is interrupted, in whatever
order its steps finish and whichever of their tasks break down. -/
theorem run_events_are_traced {pipeline : Pipeline} {compiled : CompiledPipeline}
    (compiles : CompiledPipeline.compile pipeline = .ok compiled) {endings : StepEndings}
    {State : Type} {surroundings : Surroundings State}
    (finishes : surroundings.FinishesAs endings) (identifier : RunIdentifier) (state : State) :
    ∃ count, compiled.StopsAfter surroundings identifier state count ∧
      (compiled.run surroundings identifier state).report.IsTraced compiled count
        (compiled.run surroundings identifier state).events := by
  have plans := CompiledPipeline.compiled_plans compiles
  have leaves := Surroundings.leaves_results_of_finishes finishes
  obtain ⟨count, stops⟩ := compiled.exists_stops_after surroundings identifier state
  have ends := CompiledPipeline.run_ends_perm plans leaves stops
  have ids := ends.map Prod.fst
  rw [List.map_map] at ids
  have planned : (endedSteps (compiled.run surroundings identifier state).events).Perm
      compiled.graph.planIds :=
    ids.trans (List.Perm.of_eq (CompiledPipeline.report_ids plans leaves stops))
  refine ⟨count, stops, ?_⟩
  constructor
  case grammar => exact CompiledPipeline.run_events_grammar plans leaves stops
  case declarationOrder => exact plans.wave_ids_sublist
  case barrier =>
    exact fun id before after split other place ownPlace placed ownPlaced below =>
      CompiledPipeline.run_barrier plans leaves stops split placed ownPlaced below
  case everyStepEndsOnce =>
    exact ⟨planned.nodup_iff.2 plans.plan_ids_nodup, planned.trans plans.plan_ids_perm⟩
  case endsAsReported => exact ends

theorem release_pipeline_trace :
    ∃ compiled, CompiledPipeline.compile releasePipeline = .ok compiled ∧
      let stopped := interruptedAfter 1 (lastFirst lintFails)
      (compiled.run stopped .zero ()).events =
        [.runStarted .zero "release" 6 3,
          .waveStarted 0 ["fetch", "lint"], .stepStarted "fetch", .stepStarted "lint",
          .stepFailed "lint" "" "", .stepSucceeded "fetch" .zero, .waveCompleted 0,
          .waveStarted 1 ["package", "announce"], .stepStarted "package",
          .stepSkipped "announce" "condition evaluated to false", .stepSucceeded "package" .zero,
          .waveCompleted 1, .runInterrupted 2, .stepSkipped "publish" "run interrupted",
          .stepSkipped "archive" "run interrupted", .runCompleted .zero .failed] ∧
      ∃ count, compiled.StopsAfter stopped .zero () count ∧
        (compiled.run stopped .zero ()).report.IsTraced compiled count
          (compiled.run stopped .zero ()).events := by
  have accepted : ∃ compiled, CompiledPipeline.compile releasePipeline = .ok compiled ∧
      (compiled.run (interruptedAfter 1 (lastFirst lintFails)) .zero ()).events =
        [.runStarted .zero "release" 6 3,
          .waveStarted 0 ["fetch", "lint"], .stepStarted "fetch", .stepStarted "lint",
          .stepFailed "lint" "" "", .stepSucceeded "fetch" .zero, .waveCompleted 0,
          .waveStarted 1 ["package", "announce"], .stepStarted "package",
          .stepSkipped "announce" "condition evaluated to false", .stepSucceeded "package" .zero,
          .waveCompleted 1, .runInterrupted 2, .stepSkipped "publish" "run interrupted",
          .stepSkipped "archive" "run interrupted", .runCompleted .zero .failed] :=
    ⟨_, by cbv, by cbv⟩
  obtain ⟨compiled, compiles, events⟩ := accepted
  have carries : (interruptedAfter 1 (lastFirst lintFails)).CarriesOut lintFails :=
    fun _ _ => List.reverse_perm _
  exact ⟨compiled, compiles, events, run_events_are_traced compiles
    (Surroundings.finishes_of_carries_out carries) .zero ()⟩

end PipelineWaves
