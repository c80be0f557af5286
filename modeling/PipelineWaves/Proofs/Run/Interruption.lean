import Mathlib.Data.Nat.Find
import PipelineWaves.Proofs.Graph.Layers
import PipelineWaves.Proofs.Run.Resolution

/-!
# Carried out and left waves

Before each wave a run asks whether it has been interrupted. It carries out the waves
before the first that finds an interruption and leaves that wave and all behind it: their
steps are skipped without being resolved. Where no wave finds an interruption, a run
leaves nothing, even if it is interrupted during its last wave.
-/

set_option autoImplicit false

namespace PipelineWaves

def leftEvents : List (List String) → List RunEvent
  | [] => []
  | wave :: rest =>
      let steps := (wave :: rest).flatten
      .runInterrupted steps.length ::
        steps.map fun step => .stepSkipped step SkipReason.interrupted

namespace RunProgress

theorem skip_all (progress : RunProgress) (ids : List String) (reason : String) :
    ids.foldl (fun progress id => progress.skip id reason) progress =
      ⟨progress.recorded ++ ids.map fun id => .skipped id reason,
        progress.events ++ ids.map fun id => .stepSkipped id reason⟩ := by
  induction ids generalizing progress with
  | nil => simp
  | cons id rest induction =>
      rw [List.foldl_cons, induction]
      simp [skip, announce, record]

def leave (progress : RunProgress) : List (List GraphNode) → RunProgress
  | [] => progress
  | wave :: rest => CompiledPipeline.interrupt (wave :: rest) progress

theorem leave_eq (progress : RunProgress) (waves : List (List GraphNode)) :
    progress.leave waves =
      ⟨progress.recorded ++
          (nodeIds waves.flatten).map fun id => .skipped id SkipReason.interrupted,
        progress.events ++ leftEvents (waves.map nodeIds)⟩ := by
  cases waves with
  | nil => simp [leave, leftEvents]
  | cons wave rest =>
      have ids : (nodeIds wave :: rest.map nodeIds).flatten =
          (wave :: rest).flatten.map GraphNode.id :=
        (List.map_flatten (f := GraphNode.id) (L := wave :: rest)).symm
      rw [leave, CompiledPipeline.interrupt, skip_all, List.map_cons, leftEvents, ids]
      simp [announce, nodeIds]

end RunProgress

namespace CompiledPipeline

variable {State : Type}

/-- Where a run stands after the given waves, if nothing interrupts it. -/
def afterWaves (compiled : CompiledPipeline) (surroundings : Surroundings State) (index : Nat) :
    List (List GraphNode) → RunProgress → State → RunProgress × State
  | [], progress, state => (progress, state)
  | wave :: rest, progress, state =>
      let (progress, state) := compiled.runWave surroundings index wave progress state
      compiled.afterWaves surroundings (index + 1) rest progress state

/-- A run carries out all waves before the first that finds an interruption. -/
theorem run_waves_append (compiled : CompiledPipeline) (surroundings : Surroundings State)
    (ran left : List (List GraphNode)) (index : Nat) (progress : RunProgress) (state : State)
    (goesOn : ∀ earlier < ran.length,
      let reached := compiled.afterWaves surroundings index (ran.take earlier) progress state
      surroundings.isInterrupted reached.1.events reached.2 = false) :
    compiled.runWaves surroundings index (ran ++ left) progress state =
      let reached := compiled.afterWaves surroundings index ran progress state
      compiled.runWaves surroundings (index + ran.length) left reached.1 reached.2 := by
  induction ran generalizing index progress state with
  | nil => rfl
  | cons wave rest induction =>
      have first : surroundings.isInterrupted progress.events state = false :=
        goesOn 0 (Nat.zero_lt_succ _)
      simp only [List.cons_append, runWaves, first, Bool.false_eq_true, if_false, afterWaves,
        List.length_cons]
      have later := induction (index + 1)
        (compiled.runWave surroundings index wave progress state).1
        (compiled.runWave surroundings index wave progress state).2
        fun earlier below => goesOn (earlier + 1) (Nat.succ_lt_succ below)
      rw [later, Nat.add_right_comm, Nat.add_assoc]

def started (compiled : CompiledPipeline) (identifier : RunIdentifier) : RunProgress :=
  ⟨[], [.runStarted identifier compiled.pipeline.name compiled.graph.planIds.length
    compiled.graph.waves.length]⟩

/-- Where a run stands when the wave of the given index has its turn, if no wave before
it finds an interruption. -/
def atWave (compiled : CompiledPipeline) (surroundings : Surroundings State)
    (identifier : RunIdentifier) (state : State) (index : Nat) : RunProgress × State :=
  compiled.afterWaves surroundings 0 (compiled.graph.waves.take index)
    (compiled.started identifier) state

def SeesInterruption (compiled : CompiledPipeline) (surroundings : Surroundings State)
    (identifier : RunIdentifier) (state : State) (index : Nat) : Prop :=
  index < compiled.graph.waves.length ∧
    let reached := compiled.atWave surroundings identifier state index
    surroundings.isInterrupted reached.1.events reached.2 = true

instance (compiled : CompiledPipeline) (surroundings : Surroundings State)
    (identifier : RunIdentifier) (state : State) :
    DecidablePred (compiled.SeesInterruption surroundings identifier state) :=
  fun _ => inferInstanceAs (Decidable (_ ∧ _))

theorem mem_interrupted_waves {compiled : CompiledPipeline} {surroundings : Surroundings State}
    {identifier : RunIdentifier} {state : State} {index : Nat} :
    index ∈ (List.range compiled.graph.waves.length).filter
        (fun index => compiled.SeesInterruption surroundings identifier state index) ↔
      compiled.SeesInterruption surroundings identifier state index := by
  rw [List.mem_filter, List.mem_range, decide_eq_true_iff]
  exact and_iff_right_of_imp And.left

/-- The run carries out the first `count` waves and leaves the others. -/
structure StopsAfter (compiled : CompiledPipeline) (surroundings : Surroundings State)
    (identifier : RunIdentifier) (state : State) (count : Nat) : Prop where
  goesOn : ∀ index < count, ¬compiled.SeesInterruption surroundings identifier state index
  stops : compiled.SeesInterruption surroundings identifier state count ∨
    count = compiled.graph.waves.length

section Stopping

variable {compiled : CompiledPipeline} {surroundings : Surroundings State}
  {identifier : RunIdentifier} {state : State} {count : Nat}

theorem exists_stops_after (compiled : CompiledPipeline) (surroundings : Surroundings State)
    (identifier : RunIdentifier) (state : State) :
    ∃ count, compiled.StopsAfter surroundings identifier state count := by
  by_cases found : ∃ index, compiled.SeesInterruption surroundings identifier state index
  · exact ⟨Nat.find found, fun index below => Nat.find_min found below,
      Or.inl (Nat.find_spec found)⟩
  · exact ⟨compiled.graph.waves.length, fun index _ sees => found ⟨index, sees⟩, Or.inr rfl⟩

theorem StopsAfter.le_length
    (stops : compiled.StopsAfter surroundings identifier state count) :
    count ≤ compiled.graph.waves.length :=
  stops.stops.elim (fun sees => Nat.le_of_lt sees.1) Nat.le_of_eq

theorem StopsAfter.lt_length_iff
    (stops : compiled.StopsAfter surroundings identifier state count) :
    count < compiled.graph.waves.length ↔
      ∃ index, compiled.SeesInterruption surroundings identifier state index := by
  constructor
  · intro below
    exact ⟨count, stops.stops.resolve_right (Nat.ne_of_lt below)⟩
  · rintro ⟨index, sees⟩
    by_contra notBelow
    exact stops.goesOn index (Nat.lt_of_lt_of_le sees.1 (Nat.not_lt.1 notBelow)) sees

theorem run_waves_of_stops (stops : compiled.StopsAfter surroundings identifier state count) :
    let reached := compiled.atWave surroundings identifier state count
    compiled.runWaves surroundings 0 compiled.graph.waves (compiled.started identifier) state =
      (reached.1.leave (compiled.graph.waves.drop count), reached.2,
        decide (count < compiled.graph.waves.length)) := by
  intro reached
  have ran : (compiled.graph.waves.take count).length = count :=
    List.length_take_of_le stops.le_length
  have split := compiled.run_waves_append surroundings (compiled.graph.waves.take count)
    (compiled.graph.waves.drop count) 0 (compiled.started identifier) state <| by
      intro earlier below reached
      rw [ran] at below
      have notSeen := stops.goesOn earlier below
      rw [SeesInterruption, not_and] at notSeen
      simp only [reached, List.take_take, Nat.min_eq_left (Nat.le_of_lt below)]
      exact Bool.eq_false_iff.2 (notSeen (Nat.lt_of_lt_of_le below stops.le_length))
  rw [List.take_append_drop] at split
  rw [split, ran, Nat.zero_add]
  rcases stops.stops with sees | all
  · obtain ⟨wave, rest, left⟩ : ∃ wave rest, compiled.graph.waves.drop count = wave :: rest :=
      List.exists_cons_of_ne_nil (by simpa using sees.1)
    have stopped : surroundings.isInterrupted reached.1.events reached.2 = true := sees.2
    simp only [reached, atWave] at stopped
    simp only [left, runWaves, stopped, if_true, RunProgress.leave, sees.1, decide_true, reached,
      atWave]
  · have nothing : compiled.graph.waves.drop count = [] := by simp [all]
    have notBelow : ¬count < compiled.graph.waves.length := by simp [all]
    simp only [nothing, runWaves, RunProgress.leave, notBelow, decide_false, reached, atWave]

end Stopping

end CompiledPipeline

end PipelineWaves
