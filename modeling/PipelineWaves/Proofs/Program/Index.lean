import Mathlib.Data.List.Sort
import PipelineWaves.Program.Table
import PipelineWaves.Proofs.Graph.Place
import PipelineWaves.Proofs.Layering

/-!
# Positions by id

A program finds the position of a step in a dictionary of the planned steps. As the plan of
a built graph names every step once, the dictionary knows each of them and gives its place
in the plan. So no look-up drops a step: the waves count the positions through, and a sorted
row has the positions of all its steps.
-/

set_option autoImplicit false

namespace PipelineWaves

namespace CompiledPipeline

variable {compiled : CompiledPipeline}

theorem plan_steps_ids (plans : compiled.graph.Plans compiled.pipeline) :
    compiled.planSteps.map Step.id = compiled.graph.planIds := by
  have declared : ∀ id ∈ compiled.graph.planIds, id ∈ compiled.pipeline.stepIds :=
    fun id member => plans.mem_plan_ids.1 member
  rw [planSteps]
  generalize compiled.graph.planIds = ids at declared ⊢
  induction ids with
  | nil => rfl
  | cons id rest induction =>
      obtain ⟨step, member, same⟩ := List.mem_map.1 (declared id List.mem_cons_self)
      have found : compiled.pipeline.step? id = some step :=
        same ▸ Pipeline.step?_of_mem plans.distinct member
      have later := induction fun other present => declared other (List.mem_cons_of_mem id present)
      rw [List.filterMap_cons, found, List.map_cons, later, same]

theorem plan_steps_at (plans : compiled.graph.Plans compiled.pipeline) {step : Step} {index : Nat}
    (member : step ∈ compiled.pipeline.steps)
    (position : compiled.graph.planIds[index]? = some step.id) :
    compiled.planSteps[index]? = some step := by
  rw [← plan_steps_ids plans, List.getElem?_map, Option.map_eq_some_iff] at position
  obtain ⟨found, foundAt, sameId⟩ := position
  obtain ⟨id, _, isStep⟩ := List.mem_filterMap.1 (List.mem_of_getElem? foundAt)
  have foundMember : found ∈ compiled.pipeline.steps := List.mem_of_find?_eq_some isStep
  rw [foundAt, Pipeline.step_eq_of_id_eq plans.distinct foundMember member sameId]

end CompiledPipeline

theorem stands_at_position {plan : List String} {id : String} {index : Nat}
    (found : plan.findIdx? (fun other => other = id) = some index) : plan[index]? = some id := by
  obtain ⟨below, same, _⟩ := List.findIdx?_eq_some_iff_getElem.1 found
  rw [List.getElem?_eq_getElem below]
  simpa using same

theorem position_of_planned {plan : List String} {id : String} (planned : id ∈ plan) :
    ∃ index, plan.findIdx? (fun other => other = id) = some index ∧ plan[index]? = some id := by
  have found : (plan.findIdx? fun other => other = id).isSome = true := by
    rw [List.findIdx?_isSome]
    simpa using planned
  obtain ⟨index, isIndex⟩ := Option.isSome_iff_exists.1 found
  exact ⟨index, isIndex, stands_at_position isIndex⟩

theorem position_iff {plan : List String} (distinct : plan.Nodup) {id : String} {index : Nat} :
    plan.findIdx? (fun other => other = id) = some index ↔ plan[index]? = some id := by
  refine ⟨stands_at_position, fun atIndex => ?_⟩
  obtain ⟨other, position, atOther⟩ := position_of_planned (List.mem_of_getElem? atIndex)
  have below := (List.getElem?_eq_some_iff.1 atOther).1
  rw [position, (List.getElem?_inj below distinct).1 (atOther.trans atIndex.symm)]

theorem lookup_iff_mem {Value : Type} {entries : List (String × Value)}
    (distinct : (entries.map Prod.fst).Nodup) {key : String} {value : Value} :
    entries.lookup key = some value ↔ (key, value) ∈ entries := by
  induction entries with
  | nil => simp
  | cons entry rest induction =>
      obtain ⟨fresh, later⟩ := List.nodup_cons.1 distinct
      obtain ⟨first, held⟩ := entry
      rw [lookup_cons_eq_if, List.mem_cons, Prod.mk.injEq]
      by_cases same : key = first
      · have absent : (key, value) ∉ rest := fun member =>
          fresh (List.mem_map.2 ⟨_, member, same⟩)
        simp [same, same ▸ absent, eq_comm]
      · simp [same, induction later]

namespace ProgramTables

theorem index_iff {steps : List Step} (distinct : (steps.map Step.id).Nodup) {id : String}
    {position : Nat} :
    (indexOf steps).get? id = some position ↔ (steps.map Step.id)[position]? = some id := by
  have keys : (steps.zipIdx.map fun entry => (entry.1.id, entry.2)).map Prod.fst =
      steps.map Step.id := by
    rw [List.map_map, ← congrArg (List.map Step.id) (List.zipIdx_map_fst 0 steps), List.map_map]
    rfl
  have reversed : ((steps.zipIdx.map fun entry => (entry.1.id, entry.2)).reverse.map
      Prod.fst).Nodup := by
    rw [List.map_reverse, List.nodup_reverse, keys]
    exact distinct
  rw [indexOf, Dictionary.get?_ofList, lookup_iff_mem reversed, List.mem_reverse, List.mem_map,
    List.getElem?_map, Option.map_eq_some_iff]
  constructor
  · rintro ⟨⟨step, index⟩, member, same⟩
    cases same
    exact ⟨step, List.mem_zipIdx_iff_getElem?.1 member, rfl⟩
  · rintro ⟨step, atPosition, rfl⟩
    exact ⟨(step, position), List.mem_zipIdx_iff_getElem?.2 atPosition, rfl⟩

/-- Consecutive positions for the steps of each wave. -/
def wavePositions (start : Nat) : List (List String) → List (List Nat)
  | [] => []
  | wave :: rest =>
      (List.range wave.length).map (start + ·) :: wavePositions (start + wave.length) rest

/-- The positions in the plan at which one of the given steps stands. -/
def positionsAmong (plan steps : List String) : List Nat :=
  (List.range plan.length).filter fun index =>
    match plan[index]? with
    | some id => steps.contains id
    | none => false

theorem positions_in_wave {index : Dictionary Nat} {wave : List String} {start : Nat}
    (known : ∀ place id, wave[place]? = some id → index.get? id = some (start + place)) :
    positionsIn index wave = (List.range wave.length).map (start + ·) := by
  induction wave generalizing start with
  | nil => rfl
  | cons id rest induction =>
      have first := known 0 id rfl
      have later : positionsIn index rest = (List.range rest.length).map (start + 1 + ·) :=
        induction fun place other atPlace => by
          rw [known (place + 1) other atPlace, Nat.add_assoc, Nat.add_comm 1 place]
      rw [positionsIn] at later ⊢
      rw [List.filterMap_cons_some first, later, List.length_cons, List.range_succ_eq_map,
        List.map_cons, List.map_map]
      refine congrArg _ (List.map_congr_left fun place _ => ?_)
      simp only [Function.comp_apply]
      omega

/-- Looking up all steps of a plan wave by wave counts their positions through. -/
theorem positions_in_waves {index : Dictionary Nat} {waves : List (List String)} {start : Nat}
    (known : ∀ place id, waves.flatten[place]? = some id → index.get? id = some (start + place)) :
    waves.map (positionsIn index) = wavePositions start waves := by
  induction waves generalizing start with
  | nil => rfl
  | cons wave rest induction =>
      have own : ∀ place id, wave[place]? = some id → index.get? id = some (start + place) := by
        intro place id atPlace
        refine known place id ?_
        rw [List.flatten_cons, List.getElem?_append_left (List.getElem?_eq_some_iff.1 atPlace).1]
        exact atPlace
      have later : rest.map (positionsIn index) = wavePositions (start + wave.length) rest :=
        induction fun place id atPlace => by
          rw [known (wave.length + place) id, Nat.add_assoc]
          rw [List.flatten_cons, List.getElem?_append_right (Nat.le_add_right _ _),
            Nat.add_sub_cancel_left]
          exact atPlace
      rw [List.map_cons, wavePositions, positions_in_wave own, later]

theorem mem_positions_among_iff {plan steps : List String} {position : Nat} :
    position ∈ positionsAmong plan steps ↔ ∃ id, plan[position]? = some id ∧ id ∈ steps := by
  rw [positionsAmong, List.mem_filter, List.mem_range]
  constructor
  · rintro ⟨below, listed⟩
    rw [List.getElem?_eq_getElem below] at listed
    exact ⟨_, List.getElem?_eq_getElem below, List.contains_iff_mem.1 listed⟩
  · rintro ⟨id, atPosition, member⟩
    rw [atPosition]
    exact ⟨(List.getElem?_eq_some_iff.1 atPosition).1, List.contains_iff_mem.2 member⟩

theorem positions_ascend (plan steps : List String) :
    (positionsAmong plan steps).Pairwise (· < ·) :=
  List.pairwise_lt_range.filter _

/-- Sorting the positions that a dictionary of the plan has for some steps gives them in
ascending order, each step at its own position. -/
theorem sorted_positions {index : Dictionary Nat} {plan steps : List String}
    (known : ∀ id position, index.get? id = some position ↔ plan[position]? = some id)
    (distinct : steps.Nodup) :
    (positionsIn index steps).mergeSort = positionsAmong plan steps := by
  have once : (positionsIn index steps).mergeSort.Nodup := by
    rw [(List.mergeSort_perm _ _).nodup_iff]
    refine distinct.filterMap fun first second position isFirst isSecond => ?_
    have atFirst := (known first position).1 isFirst
    rw [(known second position).1 isSecond] at atFirst
    exact (Option.some.inj atFirst).symm
  have ordered : (positionsIn index steps).mergeSort.Pairwise (· ≤ ·) :=
    List.sortedLE_mergeSort.pairwise
  have ascending : (positionsIn index steps).mergeSort.Pairwise (· < ·) :=
    (ordered.and once).imp fun both => lt_of_le_of_ne both.1 both.2
  refine ascending.eq_of_mem_iff (positions_ascend _ _) fun position => ?_
  rw [(List.mergeSort_perm _ _).mem_iff, mem_positions_among_iff, positionsIn, List.mem_filterMap]
  simp only [known, and_comm]

end ProgramTables

namespace CompiledPipeline

variable {compiled : CompiledPipeline}

theorem index_of_plan (plans : compiled.graph.Plans compiled.pipeline) :
    (ProgramTables.indexOf compiled.planSteps).get? =
      fun id => compiled.graph.planIds.findIdx? fun other => other = id := by
  have distinct := plans.plan_ids_nodup
  funext id
  ext position
  rw [position_iff distinct, ← plan_steps_ids plans]
  exact ProgramTables.index_iff (by rwa [plan_steps_ids plans])

theorem table_waves (plans : compiled.graph.Plans compiled.pipeline) :
    (ProgramTables.of compiled).waves =
      ProgramTables.wavePositions 0 compiled.graph.waveIds := by
  refine ProgramTables.positions_in_waves fun place id atPlace => ?_
  rw [index_of_plan plans, Nat.zero_add]
  exact (position_iff plans.plan_ids_nodup).2 atPlace

theorem table_dependents (plans : compiled.graph.Plans compiled.pipeline) :
    (ProgramTables.of compiled).dependents = compiled.graph.planIds.map fun id =>
      ProgramTables.positionsAmong compiled.graph.planIds
        (compiled.graph.transitiveDependents id) := by
  rw [← plan_steps_ids plans, List.map_map, plan_steps_ids plans]
  refine List.map_congr_left fun step _ => ProgramTables.sorted_positions (fun id position => ?_) ?_
  · rw [index_of_plan plans, position_iff plans.plan_ids_nodup]
  · have inOrder : (compiled.graph.transitiveDependents step.id).Sublist
        compiled.pipeline.stepIds := by
      rw [← plans.node_ids_eq]
      exact List.filter_sublist
    exact plans.distinct.sublist inOrder

end CompiledPipeline

end PipelineWaves
