import Mathlib.Logic.Relation
import PipelineWaves.Proofs.Compilation
import PipelineWaves.Proofs.Run.Cascade
import PipelineWaves.Run.Arrival
import PipelineWaves.Run.Execution
import PipelineWaves.Run.Strategy

/-!
# Admission of steps

The dispatched steps of a wave are handed over together. Each asks for a permit when it is
first attended to, which may happen in any order; permits go to those who ask in the order
in which they ask; whoever has one starts its recipe at some time and gives the permit back
when the recipe has ended. With a single permit the recipes run one at a time, in the order
in which their steps asked. That is the order of declaration only where the steps are
attended to in this order, and nothing sees to that.
-/

set_option autoImplicit false

namespace PipelineWaves

inductive RecipeEvent where
  | started (dispatch : Dispatch)
  | ended (dispatch : Dispatch)
deriving DecidableEq, Repr

namespace RecipeEvent

def oneByOne (dispatches : List Dispatch) : List RecipeEvent :=
  dispatches.flatMap fun dispatch => [started dispatch, ended dispatch]

/-- No recipe starts before those of all steps that are declared earlier have ended. -/
def InDeclaredOrder (dispatches : List Dispatch) (history : List RecipeEvent) : Prop :=
  ∀ earlier later, [earlier, later].Sublist dispatches →
    [ended earlier, started later].Sublist history

theorem started_mem_one_by_one {order : List Dispatch} {dispatch : Dispatch} :
    started dispatch ∈ oneByOne order ↔ dispatch ∈ order := by
  simp [oneByOne]

theorem ended_before_started {order : List Dispatch} {first second : Dispatch} :
    [ended first, started second].Sublist (oneByOne order) ↔ [first, second].Sublist order := by
  induction order with
  | nil => simp [oneByOne]
  | cons dispatch rest induction =>
      have unfolded : oneByOne (dispatch :: rest) =
          started dispatch :: ended dispatch :: oneByOne rest := rfl
      rw [unfolded, List.sublist_cons_iff, List.sublist_cons_iff, List.sublist_cons_iff, induction]
      simp [started_mem_one_by_one]

theorem eq_of_pairs_kept {order dispatches : List Dispatch} (same : order.Perm dispatches)
    (distinct : dispatches.Nodup)
    (kept : ∀ first second, [first, second].Sublist dispatches → [first, second].Sublist order) :
    order = dispatches := by
  induction dispatches generalizing order with
  | nil => exact same.eq_nil
  | cons dispatch rest induction =>
      obtain ⟨notLater, distinctRest⟩ := List.nodup_cons.1 distinct
      cases order with
      | nil => exact absurd same.symm.eq_nil (List.cons_ne_nil _ _)
      | cons head others =>
          have headFirst : head = dispatch := by
            by_contra other
            have later : head ∈ rest :=
              (List.mem_cons.1 (same.mem_iff.1 List.mem_cons_self)).resolve_left other
            have pair := kept dispatch head
              (List.Sublist.cons_cons dispatch (List.singleton_sublist.2 later))
            have repeated : head ∈ others := by
              rcases List.sublist_cons_iff.1 pair with after | ⟨_, here, _⟩
              · exact after.subset (by simp)
              · exact absurd (List.cons.inj here).1.symm other
            exact (List.nodup_cons.1 (same.nodup_iff.2 distinct)).1 repeated
          subst headFirst
          congr 1
          refine induction (List.perm_cons head |>.1 same) distinctRest fun first second pair => ?_
          rcases List.sublist_cons_iff.1 (kept first second (pair.cons head)) with
            after | ⟨_, here, _⟩
          · exact after
          · exact absurd ((List.cons.inj here).1 ▸ pair.subset (by simp)) notLater

theorem in_declared_order_iff {order dispatches : List Dispatch} (same : order.Perm dispatches)
    (distinct : dispatches.Nodup) :
    InDeclaredOrder dispatches (oneByOne order) ↔ order = dispatches := by
  simp only [InDeclaredOrder, ended_before_started]
  constructor
  · exact eq_of_pairs_kept same distinct
  · rintro rfl first second pair
    exact pair

end RecipeEvent

open RecipeEvent

/-- The dispatched steps of a wave on their way to the end of their recipes. -/
structure WaveTasks where
  /-- Those that nobody has attended to. -/
  spawned : List Dispatch
  /-- All that have asked for a permit, in the order in which they asked. -/
  arrivals : List Dispatch
  waiting : List Dispatch
  /-- Those that have a permit and have not started. -/
  admitted : List Dispatch
  running : List Dispatch
  history : List RecipeEvent
  results : List StepResult
  world : World

namespace WaveTasks

def start (dispatches : List Dispatch) (world : World) : WaveTasks :=
  ⟨dispatches, [], [], [], [], [], [], world⟩

def IsOver (tasks : WaveTasks) : Prop :=
  tasks.spawned = [] ∧ tasks.waiting = [] ∧ tasks.admitted = [] ∧ tasks.running = []

variable {workshop : Workshop} {now : Instant} {permits : Nat} {tasks after : WaveTasks}
  {dispatches : List Dispatch} {world : World}

/-- One thing that happens in a wave. What a recipe does is put down when it ends; as long
as no other one runs at the same time, nobody can tell the difference. -/
inductive Step (workshop : Workshop) (now : Instant) (permits : Nat) :
    WaveTasks → WaveTasks → Prop
  | arrive {tasks : WaveTasks} {before behind : List Dispatch} {dispatch : Dispatch}
      (found : tasks.spawned = before ++ dispatch :: behind) :
      Step workshop now permits tasks
        { tasks with
          spawned := before ++ behind
          arrivals := tasks.arrivals ++ [dispatch]
          waiting := tasks.waiting ++ [dispatch] }
  | grant {tasks : WaveTasks} {rest : List Dispatch} {dispatch : Dispatch}
      (first : tasks.waiting = dispatch :: rest)
      (free : tasks.admitted.length + tasks.running.length < permits) :
      Step workshop now permits tasks
        { tasks with waiting := rest, admitted := tasks.admitted ++ [dispatch] }
  | begin {tasks : WaveTasks} {before behind : List Dispatch} {dispatch : Dispatch}
      (found : tasks.admitted = before ++ dispatch :: behind) :
      Step workshop now permits tasks
        { tasks with
          admitted := before ++ behind
          running := tasks.running ++ [dispatch]
          history := tasks.history ++ [.started dispatch] }
  | finish {tasks : WaveTasks} {before behind : List Dispatch} {dispatch : Dispatch}
      (found : tasks.running = before ++ dispatch :: behind) :
      Step workshop now permits tasks
        { tasks with
          running := before ++ behind
          history := tasks.history ++ [.ended dispatch]
          results := tasks.results ++ (workshop.carryOut now dispatch tasks.world).1.toList
          world := (workshop.carryOut now dispatch tasks.world).2 }

/-- What can be reached from a state, whatever happens in whichever order. -/
abbrev Reaches (workshop : Workshop) (now : Instant) (permits : Nat) :
    WaveTasks → WaveTasks → Prop :=
  Relation.ReflTransGen (Step workshop now permits)

theorem Step.within_permits (step : Step workshop now permits tasks after)
    (within : tasks.admitted.length + tasks.running.length ≤ permits) :
    after.admitted.length + after.running.length ≤ permits := by
  cases step with
  | arrive found => exact within
  | grant first free =>
      simp only [List.length_append, List.length_singleton]
      omega
  | begin found =>
      simp only [found, List.length_append, List.length_cons] at within ⊢
      simp only [List.length_nil]
      omega
  | finish found =>
      simp only [found, List.length_append, List.length_cons] at within ⊢
      omega

theorem running_within_permits
    (reached : Reaches workshop now permits (start dispatches world) tasks) :
    tasks.admitted.length + tasks.running.length ≤ permits := by
  induction reached with
  | refl => exact Nat.zero_le _
  | tail _ step within => exact step.within_permits within

/-- Those whose turn is over have been carried out one after the other; after them comes who
has the permit, and then who waits for it, all in the order of their arrival. -/
structure InTurn (workshop : Workshop) (now : Instant) (dispatches : List Dispatch)
    (world : World) (done : List Dispatch) (tasks : WaveTasks) : Prop where
  asked : (tasks.spawned ++ tasks.arrivals).Perm dispatches
  arrivals : tasks.arrivals = done ++ tasks.admitted ++ tasks.running ++ tasks.waiting
  history : tasks.history = oneByOne done ++ tasks.running.map .started
  carried : (tasks.results, tasks.world) = workshop.carryOutAll now done world

theorem carry_out_all_concat (workshop : Workshop) (now : Instant) (done : List Dispatch)
    (dispatch : Dispatch) (world : World) :
    workshop.carryOutAll now (done ++ [dispatch]) world =
      let ended := workshop.carryOutAll now done world
      (ended.1 ++ (workshop.carryOut now dispatch ended.2).1.toList,
        (workshop.carryOut now dispatch ended.2).2) := by
  induction done generalizing world with
  | nil => simp [Workshop.carryOutAll]
  | cons first rest induction => simp [Workshop.carryOutAll, induction]

theorem alone {before behind : List Dispatch} {dispatch : Dispatch} {others : Nat}
    (few : (before ++ dispatch :: behind).length + others ≤ 1) :
    before = [] ∧ behind = [] ∧ others = 0 := by
  rw [List.length_append, List.length_cons] at few
  exact ⟨List.length_eq_zero_iff.1 (by omega), List.length_eq_zero_iff.1 (by omega), by omega⟩

theorem InTurn.step {done : List Dispatch}
    (inTurn : InTurn workshop now dispatches world done tasks)
    (single : tasks.admitted.length + tasks.running.length ≤ 1)
    (step : Step workshop now 1 tasks after) :
    ∃ done, InTurn workshop now dispatches world done after := by
  obtain ⟨asked, arrivals, history, carried⟩ := inTurn
  cases step with
  | arrive found =>
      rename_i before behind dispatch
      refine ⟨done, ?_, ?_, history, carried⟩
      · refine List.Perm.trans ?_ asked
        rw [found, List.append_assoc, List.append_assoc, List.cons_append]
        refine .append_left before ?_
        rw [← List.append_assoc]
        exact List.perm_append_singleton dispatch _
      · simp [arrivals]
  | grant first free =>
      have nobody : tasks.admitted = [] ∧ tasks.running = [] :=
        ⟨List.length_eq_zero_iff.1 (by omega), List.length_eq_zero_iff.1 (by omega)⟩
      refine ⟨done, asked, ?_, history, carried⟩
      simp [arrivals, first, nobody]
  | begin found =>
      rw [found] at single
      obtain ⟨rfl, rfl, nobody⟩ := alone single
      have idle := List.length_eq_zero_iff.1 nobody
      refine ⟨done, asked, ?_, ?_, carried⟩
      · simp [arrivals, found, idle]
      · simp [history, idle]
  | finish found =>
      rename_i before behind dispatch
      rw [found, Nat.add_comm] at single
      obtain ⟨rfl, rfl, nobody⟩ := alone single
      have idle := List.length_eq_zero_iff.1 nobody
      refine ⟨done ++ [dispatch], asked, ?_, ?_, ?_⟩
      · simp [arrivals, found, idle]
      · simp [history, found, oneByOne]
      · rw [carry_out_all_concat, ← carried]

theorem in_turn_of_reached (reached : Reaches workshop now 1 (start dispatches world) tasks) :
    ∃ done, InTurn workshop now dispatches world done tasks := by
  induction reached with
  | refl => exact ⟨[], by simp [start], rfl, rfl, rfl⟩
  | tail before step induction =>
      obtain ⟨_, inTurn⟩ := induction
      exact inTurn.step (running_within_permits before) step

/-- When all is over, the recipes have run one by one as their steps arrived. -/
theorem over_in_turn (reached : Reaches workshop now 1 (start dispatches world) tasks)
    (finished : tasks.IsOver) :
    tasks.arrivals.Perm dispatches ∧ tasks.history = oneByOne tasks.arrivals ∧
      (tasks.results, tasks.world) = workshop.carryOutAll now tasks.arrivals world := by
  obtain ⟨done, asked, arrivals, history, carried⟩ := in_turn_of_reached reached
  obtain ⟨noneSpawned, noneWaiting, noneAdmitted, noneRunning⟩ := finished
  have allDone : tasks.arrivals = done := by
    simpa [noneAdmitted, noneRunning, noneWaiting] using arrivals
  rw [noneSpawned, List.nil_append] at asked
  refine ⟨asked, ?_, allDone ▸ carried⟩
  simpa [allDone, noneRunning] using history

theorem all_arrive {order : List Dispatch} (same : order.Perm tasks.spawned) :
    Reaches workshop now permits tasks
      { tasks with
        spawned := []
        arrivals := tasks.arrivals ++ order
        waiting := tasks.waiting ++ order } := by
  induction order generalizing tasks with
  | nil =>
      have noneSpawned : tasks.spawned = [] := same.symm.eq_nil
      simp only [List.append_nil]
      rw [← noneSpawned]
  | cons dispatch rest induction =>
      obtain ⟨before, behind, found⟩ := List.append_of_mem (same.mem_iff.1 List.mem_cons_self)
      rw [found] at same
      have others : rest.Perm (before ++ behind) :=
        (List.perm_cons dispatch).1 (same.trans List.perm_middle)
      refine .head (.arrive found) ?_
      have later := @induction
        { tasks with
          spawned := before ++ behind
          arrivals := tasks.arrivals ++ [dispatch]
          waiting := tasks.waiting ++ [dispatch] } others
      simpa using later

structure IsQueued (tasks : WaveTasks) (queue : List Dispatch) : Prop where
  spawned : tasks.spawned = []
  waiting : tasks.waiting = queue
  admitted : tasks.admitted = []
  running : tasks.running = []

theorem IsQueued.next {dispatch : Dispatch} {rest : List Dispatch}
    (queued : tasks.IsQueued (dispatch :: rest)) (some : 1 ≤ permits) :
    ∃ after, Reaches workshop now permits tasks after ∧ after.IsQueued rest ∧
      after.arrivals = tasks.arrivals := by
  obtain ⟨spawned, arrivals, waiting, admitted, running, history, results, world⟩ := tasks
  obtain ⟨rfl, rfl, rfl, rfl⟩ := queued
  refine ⟨_, .head (.grant rfl some) (.head (@Step.begin _ _ _ _ [] [] dispatch rfl)
    (.single (@Step.finish _ _ _ _ [] [] dispatch rfl))), ⟨rfl, rfl, rfl, rfl⟩, rfl⟩

theorem IsQueued.served {queue : List Dispatch} (queued : tasks.IsQueued queue)
    (some : 1 ≤ permits) :
    ∃ after, Reaches workshop now permits tasks after ∧ after.IsOver ∧
      after.arrivals = tasks.arrivals := by
  induction queue generalizing tasks with
  | nil =>
      exact ⟨tasks, .refl, ⟨queued.spawned, queued.waiting, queued.admitted, queued.running⟩, rfl⟩
  | cons dispatch rest induction =>
      obtain ⟨next, reached, queuedNext, sameArrivals⟩ := queued.next some
      obtain ⟨after, reachedAfter, isOver, sameAfter⟩ := induction queuedNext
      exact ⟨after, reached.trans reachedAfter, isOver, sameAfter.trans sameArrivals⟩

/-- Any order of arrival can come about, and the wave is then carried out to its end. -/
theorem exists_of_order (some : 1 ≤ permits) {order : List Dispatch}
    (same : order.Perm dispatches) (world : World) :
    ∃ tasks, Reaches workshop now permits (start dispatches world) tasks ∧ tasks.IsOver ∧
      tasks.arrivals = order := by
  have arrived : Reaches workshop now permits (start dispatches world)
      { start dispatches world with spawned := [], arrivals := order, waiting := order } :=
    all_arrive same
  have queued : IsQueued
      { start dispatches world with spawned := [], arrivals := order, waiting := order } order :=
    ⟨rfl, rfl, rfl, rfl⟩
  obtain ⟨tasks, reached, isOver, sameArrivals⟩ := queued.served some
  exact ⟨tasks, arrived.trans reached, isOver, sameArrivals⟩

end WaveTasks

namespace CompiledPipeline

variable {compiled : CompiledPipeline}

theorem dispatched_sublist (compiled : CompiledPipeline) (progress : RunProgress)
    (steps : List Step) :
    (dispatchIds (compiled.resolveWave progress steps).2).Sublist (steps.map Step.id) := by
  induction steps generalizing progress with
  | nil => exact .slnil
  | cons step rest induction =>
      rw [resolveWave]
      cases compiled.resolve progress step with
      | blocked failed => exact (induction _).cons _
      | conditionFalse => exact (induction _).cons _
      | dispatched => exact (induction _).cons_cons _

theorem wave_dispatched_in_order (plans : compiled.graph.Plans compiled.pipeline)
    {wave : List GraphNode} (inPlan : wave ∈ compiled.graph.waves) (progress : RunProgress) :
    (dispatchIds (compiled.resolveWave progress (compiled.waveSteps wave)).2).Sublist
      compiled.pipeline.stepIds := by
  have inside : ∀ node ∈ wave, node ∈ compiled.graph.waves.flatten :=
    fun node member => List.mem_flatten.2 ⟨wave, inPlan, member⟩
  have resolved := compiled.dispatched_sublist progress (compiled.waveSteps wave)
  rw [wave_steps_ids plans inside] at resolved
  exact resolved.trans (plans.wave_ids_sublist _ (List.mem_map_of_mem inPlan))

end CompiledPipeline

/-- What surroundings make of a wave is what its steps come to with a single permit, if they
arrive in the same order. -/
theorem Surroundings.arriving_admitted (workshop : Workshop) (now : Instant)
    (interrupted : List RunEvent → Bool) (arrival : Arrival) (dispatches : List Dispatch)
    (world : World) :
    ∃ tasks, WaveTasks.Reaches workshop now 1 (WaveTasks.start dispatches world) tasks ∧
      tasks.IsOver ∧ tasks.arrivals = arrival.order dispatches ∧
      ((workshop.surroundings now interrupted).arriving arrival).perform dispatches world =
        (tasks.results, tasks.world) := by
  obtain ⟨tasks, reached, finished, arrivals⟩ :=
    @WaveTasks.exists_of_order workshop now _ _ (Nat.le_refl 1) _ (arrival.perm dispatches) world
  refine ⟨tasks, reached, finished, arrivals, ?_⟩
  rw [(WaveTasks.over_in_turn reached finished).2.2, arrivals]
  rfl

/-- The steps of a wave are dispatched in the order of their declaration. Under sequential
scheduling their recipes run one at a time, in the order in which the steps have asked for
the permit, and that may be any order. So they run in the order of declaration exactly when
the steps have asked in it. What the surroundings of a run make of the wave is what this
comes to for the order in which the steps arrive. -/
theorem sequential_waves_follow_arrival {pipeline : Pipeline} {compiled : CompiledPipeline}
    (compiles : CompiledPipeline.compile pipeline = .ok compiled) (workshop : Workshop)
    (now : Instant) {wave : List GraphNode} (inPlan : wave ∈ compiled.graph.waves)
    (progress : RunProgress) (world : World) :
    let dispatches := (compiled.resolveWave progress (compiled.waveSteps wave)).2
    let reaches := WaveTasks.Reaches workshop now
      (SchedulingStrategy.sequential.permits wave.length)
      (WaveTasks.start dispatches world)
    (dispatchIds dispatches).Sublist pipeline.stepIds ∧
      (∀ tasks, reaches tasks → tasks.IsOver →
        tasks.arrivals.Perm dispatches ∧ tasks.history = oneByOne tasks.arrivals ∧
          (tasks.results, tasks.world) = workshop.carryOutAll now tasks.arrivals world ∧
          (InDeclaredOrder dispatches tasks.history ↔ tasks.arrivals = dispatches)) ∧
      (∀ order : List Dispatch, order.Perm dispatches →
        ∃ tasks, reaches tasks ∧ tasks.IsOver ∧ tasks.arrivals = order) ∧
      ∀ (interrupted : List RunEvent → Bool) (arrival : Arrival),
        ∃ tasks, reaches tasks ∧ tasks.IsOver ∧ tasks.arrivals = arrival.order dispatches ∧
          ((workshop.surroundings now interrupted).arriving arrival).perform dispatches world =
            (tasks.results, tasks.world) := by
  have plans := CompiledPipeline.compile_plans compiles
  have samePipeline := (CompiledPipeline.compile_parts compiles).1
  subst samePipeline
  have declared := CompiledPipeline.wave_dispatched_in_order plans inPlan progress
  refine ⟨declared, fun tasks reached finished => ?_, fun order same =>
    WaveTasks.exists_of_order (Nat.le_refl 1) same world, fun interrupted arrival =>
    Surroundings.arriving_admitted workshop now interrupted arrival _ world⟩
  obtain ⟨same, history, carried⟩ := WaveTasks.over_in_turn reached finished
  have distinct := List.Nodup.of_map _ (declared.nodup plans.distinct)
  exact ⟨same, history, carried, by rw [history, in_declared_order_iff same distinct]⟩

def pairPipeline : Pipeline :=
  { name := "pair"
    description := ""
    steps :=
      [⟨"first", "first", .shell "echo first" none, [], {}, none⟩,
        ⟨"second", "second", .shell "echo second" none, [], {}, none⟩]
    environment := {} }

def pairDispatches : List Dispatch :=
  pairPipeline.steps.map fun step => ⟨step, pairPipeline.environmentOf step⟩

def obligingWorkshop : Workshop :=
  { settings := .standard
    registry := .empty
    machine := ⟨"/root", fun _ world => (.ok (.ofTexts "" "" (.exited 0)), world.files)⟩ }

theorem pair_pipeline_dispatched : ∃ compiled wave,
    CompiledPipeline.compile pairPipeline = .ok compiled ∧ wave ∈ compiled.graph.waves ∧
      (compiled.resolveWave ⟨[], []⟩ (compiled.waveSteps wave)).2 = pairDispatches :=
  ⟨_, _, by cbv, List.mem_cons_self, by cbv⟩

theorem pair_pipeline_follows_arrival : ∃ compiled wave,
    CompiledPipeline.compile pairPipeline = .ok compiled ∧ wave ∈ compiled.graph.waves ∧
      ∀ (now : Instant) (world : World) (tasks : WaveTasks),
        WaveTasks.Reaches obligingWorkshop now (SchedulingStrategy.sequential.permits wave.length)
          (WaveTasks.start pairDispatches world) tasks → tasks.IsOver →
        (InDeclaredOrder pairDispatches tasks.history ↔ tasks.arrivals = pairDispatches) := by
  obtain ⟨compiled, wave, compiles, inPlan, dispatched⟩ := pair_pipeline_dispatched
  refine ⟨compiled, wave, compiles, inPlan, fun now world tasks reached finished => ?_⟩
  have follows :=
    sequential_waves_follow_arrival compiles obligingWorkshop now inPlan ⟨[], []⟩ world
  rw [dispatched] at follows
  exact (follows.2.1 tasks reached finished).2.2.2

/-- The second of two steps may ask first, and its process is then the first one. -/
theorem second_step_carried_out_first : ∃ compiled wave tasks,
    CompiledPipeline.compile pairPipeline = .ok compiled ∧ wave ∈ compiled.graph.waves ∧
      (compiled.resolveWave ⟨[], []⟩ (compiled.waveSteps wave)).2 = pairDispatches ∧
      WaveTasks.Reaches obligingWorkshop ⟨0, 0⟩ (SchedulingStrategy.sequential.permits wave.length)
        (WaveTasks.start pairDispatches ⟨default, []⟩) tasks ∧
      tasks.IsOver ∧ ¬ InDeclaredOrder pairDispatches tasks.history ∧
      tasks.world.launches.map Launch.arguments =
        [["-c", "echo second"], ["-c", "echo first"]] := by
  obtain ⟨compiled, wave, compiles, inPlan, dispatched⟩ := pair_pipeline_dispatched
  have reversed : pairDispatches.reverse.Perm pairDispatches := List.reverse_perm _
  obtain ⟨tasks, reached, finished, arrivals⟩ :=
    @WaveTasks.exists_of_order obligingWorkshop ⟨0, 0⟩ _ _ (Nat.le_refl 1) _ reversed ⟨default, []⟩
  obtain ⟨_, history, carried⟩ := WaveTasks.over_in_turn reached finished
  refine ⟨compiled, wave, tasks, compiles, inPlan, dispatched, reached, finished, ?_, ?_⟩
  · rw [history, arrivals, in_declared_order_iff reversed (by decide)]
    decide
  · have world := congrArg Prod.snd carried
    rw [arrivals] at world
    rw [show tasks.world = _ from world]
    decide +kernel

end PipelineWaves
