import PipelineWaves.Proofs.Graph.Countdown
import PipelineWaves.Proofs.Graph.Plan
import PipelineWaves.Proofs.Graph.Validity

/-!
# Placements by counting down

The rounds over positions and the graph of a pipeline. At the start of every round the counters
are those of `placeWaves`, so the waves are the same; the search over positions goes the way of
`cycleAmong` over names. Building a graph is thus counting down, and what holds of the counters
holds of it.
-/

set_option autoImplicit false

namespace PipelineWaves

namespace Pipeline

section Waiting

variable (pipeline : Pipeline) (state : Countdown pipeline.steps.length)

def placedIds : List String :=
  ((List.finRange _).filter state.placed).map pipeline.idAt

def waiting : List WaitingNode :=
  state.unplaced.map fun position => ⟨pipeline.nodeAt position, state.degree position⟩

/-- What comes of the end of the rounds, unless a subtraction fails. -/
def ended? : CountdownEnd pipeline.steps.length → Option (Except GraphError Graph)
  | .finished waves =>
      some (.ok ⟨pipeline.steps.map Graph.nodeOf, waves.map fun wave => wave.map pipeline.nodeAt⟩)
  | .stuck .noStart => some (.error (.cyclicDependency []))
  | .stuck (.deadEnd path) => some (.error (.cyclicDependency (path.map pipeline.idAt)))
  | .stuck (.closed cycle) => some (.error (.cyclicDependency (cycle.map pipeline.idAt)))
  | .belowZero => none

theorem waiting_nodes :
    waitingNodes (pipeline.waiting state) = state.unplaced.map pipeline.nodeAt := by
  rw [waitingNodes, waiting, List.map_map]
  rfl

theorem ready_waiting :
    (pipeline.waiting state).filter WaitingNode.isReady =
      state.ready.map fun position => ⟨pipeline.nodeAt position, state.degree position⟩ := by
  rw [waiting, Countdown.ready_eq, List.filter_map]
  rfl

end Waiting

section Waves

variable {pipeline : Pipeline} {links : Links pipeline.steps.length}
  {state next : Countdown pipeline.steps.length}

theorem waiting_start (linked : pipeline.Linked links) :
    pipeline.waiting (.start links) = (pipeline.steps.map Graph.nodeOf).map WaitingNode.ofNode := by
  have allUnplaced : (Countdown.start links).unplaced = List.finRange _ :=
    List.filter_eq_self.2 fun _ _ => rfl
  rw [← pipeline.nodes_by_position, List.map_map, waiting, allUnplaced]
  apply List.map_congr_left
  intro position _
  rw [Function.comp_apply, WaitingNode.ofNode, ← linked.named, List.length_map]
  rfl

/-- What is placed in a round is no longer counted behind it. -/
theorem settled_degree (distinct : pipeline.HasDistinctIds) (linked : pipeline.Linked links)
    (sound : Countdown.Sound links state) (advances : Countdown.Advances links state next)
    (position : Fin pipeline.steps.length) :
    state.degree position = next.degree position +
      ((pipeline.nodeAt position).dependencies.filter
        (state.ready.map pipeline.idAt).contains).length := by
  have inWave : ((pipeline.nodeAt position).dependencies.filter
      (state.ready.map pipeline.idAt).contains) =
        ((links.dependencies position).filter fun dependency =>
          decide (dependency ∈ state.ready)).map pipeline.idAt := by
    rw [← linked.named, List.filter_map]
    congr 1
    apply List.filter_congr
    intro dependency _
    rw [Function.comp_apply, List.contains_eq_mem]
    exact decide_eq_decide.2 (List.mem_map_of_injective (id_at_injective distinct))
  -- What was not placed is still not placed, or it is of the wave.
  have parts := List.length_eq_length_filter_add
    (l := (links.dependencies position).filter fun dependency => !state.placed dependency)
    fun dependency => !next.placed dependency
  rw [inWave, List.length_map, sound.tallied, advances.sound.tallied, parts, List.filter_filter,
    List.filter_filter]
  congr 2
  · apply List.filter_congr
    intro dependency _
    rw [advances.placed]
    cases state.placed dependency <;> simp
  · apply List.filter_congr
    intro dependency _
    rw [advances.placed]
    cases isPlaced : state.placed dependency <;> simp [Countdown.mem_ready, isPlaced]

theorem waiting_after (distinct : pipeline.HasDistinctIds) (linked : pipeline.Linked links)
    (sound : Countdown.Sound links state) (advances : Countdown.Advances links state next) :
    pipeline.waiting next = afterWave (pipeline.waiting state) := by
  have newly : ((pipeline.waiting state).filter WaitingNode.isReady).map
      (fun ready => ready.node.id) = state.ready.map pipeline.idAt := by
    rw [ready_waiting, List.map_map]
    rfl
  rw [afterWave, newly, waiting, waiting, Countdown.unplaced_after_wave advances.placed,
    List.filter_map, List.map_map]
  apply List.map_congr_left
  intro position _
  have settled := settled_degree distinct linked sound advances position
  simp only [Function.comp_apply, WaitingNode.settle]
  congr 1
  omega

/-- The counters of `placeWaves` are those of the rounds: at the start of each round the nodes
that wait there are the positions that are not placed here, with the same counts. -/
theorem waiting_reached (distinct : pipeline.HasDistinctIds) (linked : pipeline.Linked links)
    {rounds : Nat} (reached : Countdown.Reached links rounds state) :
    pipeline.waiting state =
      afterWave^[rounds] ((pipeline.steps.map Graph.nodeOf).map WaitingNode.ofNode) := by
  induction reached with
  | start => exact waiting_start linked
  | @next rounds state next reached goesOn induction =>
      have sound := (reached.sound linked.toMirrored).1
      have advances := Countdown.advances_of_onward linked.toMirrored sound goesOn
      rw [Function.iterate_succ_apply', ← induction]
      exact waiting_after distinct linked sound advances

theorem placement_reached (distinct : pipeline.HasDistinctIds) (linked : pipeline.Linked links)
    {rounds : Nat} (reached : Countdown.Reached links rounds state) :
    (Graph.placement pipeline).waves =
        (state.waves.map fun wave => wave.map pipeline.nodeAt)
          ++ (placeWaves (pipeline.waiting state)).waves ∧
      (Graph.placement pipeline).stuck = (placeWaves (pipeline.waiting state)).stuck := by
  induction reached with
  | start =>
      rw [waiting_start linked]
      exact ⟨rfl, rfl⟩
  | @next rounds state next reached goesOn induction =>
      have sound := (reached.sound linked.toMirrored).1
      have advances := Countdown.advances_of_onward linked.toMirrored sound goesOn
      have someReady : (pipeline.waiting state).filter WaitingNode.isReady ≠ [] := by
        rw [ready_waiting]
        simpa using advances.some
      have wave : ((pipeline.waiting state).filter WaitingNode.isReady).map WaitingNode.node =
          state.ready.map pipeline.nodeAt := by
        rw [ready_waiting, List.map_map]
        rfl
      obtain ⟨allWaves, allStuck⟩ := induction
      rw [placeWaves, dif_neg someReady] at allWaves allStuck
      rw [waiting_after distinct linked sound advances, advances.waves, allWaves, allStuck,
        List.map_append, List.append_assoc, wave]
      exact ⟨rfl, rfl⟩

end Waves

section Search

variable {pipeline : Pipeline} {links : Links pipeline.steps.length}
  {placed : Fin pipeline.steps.length → Bool}

/-- The nodes of the positions that are not placed. -/
def nodesLeft (pipeline : Pipeline) (placed : Fin pipeline.steps.length → Bool) :
    List GraphNode :=
  ((List.finRange _).filter fun position => !placed position).map pipeline.nodeAt

theorem any_left (distinct : pipeline.HasDistinctIds) (position : Fin pipeline.steps.length) :
    ((nodesLeft pipeline placed).any fun node => node.id = pipeline.idAt position) =
      !placed position := by
  have same : ∀ other, pipeline.idAt other = pipeline.idAt position ↔ other = position :=
    fun other => (id_at_injective distinct).eq_iff
  rw [nodesLeft, List.any_map, List.any_filter, Bool.eq_iff_iff, List.any_eq_true]
  constructor
  · rintro ⟨other, _, isUnplaced⟩
    obtain ⟨isUnplaced, sameId⟩ := Bool.and_eq_true_iff.1 isUnplaced
    rwa [(same other).1 (of_decide_eq_true sameId)] at isUnplaced
  · intro isUnplaced
    exact ⟨position, List.mem_finRange position,
      Bool.and_eq_true_iff.2 ⟨isUnplaced, decide_eq_true rfl⟩⟩

theorem find_left (distinct : pipeline.HasDistinctIds) {position : Fin pipeline.steps.length}
    (unplaced : placed position = false) :
    ((nodesLeft pipeline placed).find? fun node => node.id = pipeline.idAt position) =
      some (pipeline.nodeAt position) := by
  have someFound : ((nodesLeft pipeline placed).find? fun node =>
      node.id = pipeline.idAt position).isSome = true := by
    rw [List.find?_isSome, ← List.any_eq_true, any_left distinct, unplaced]
    rfl
  obtain ⟨node, found⟩ := Option.isSome_iff_exists.1 someFound
  obtain ⟨other, _, rfl⟩ := List.mem_map.1 (List.mem_of_find?_eq_some found)
  have sameId := List.find?_some found
  rw [found, id_at_injective distinct (of_decide_eq_true sameId)]

theorem next_among_left (distinct : pipeline.HasDistinctIds) (linked : pipeline.Linked links)
    {current : Fin pipeline.steps.length} (unplaced : placed current = false) :
    nextAmong (nodesLeft pipeline placed) (pipeline.idAt current) =
      ((links.dependencies current).find? fun dependency => !placed dependency).map
        pipeline.idAt := by
  have among : ∀ dependency, ((nodesLeft pipeline placed).any fun other =>
      other.id = pipeline.idAt dependency) = !placed dependency := any_left distinct
  rw [nextAmong, find_left distinct unplaced]
  dsimp only
  rw [← linked.named, List.find?_map]
  simp only [Function.comp_def, among]

theorem drop_while_ne {count : Nat} {path : List (Fin count)} {current : Fin count} {place : Nat}
    (distinct : path.Nodup) (found : path[place]? = some current) :
    (path.dropWhile fun earlier => earlier ≠ current) = path.drop place := by
  induction path generalizing place with
  | nil => simp at found
  | cons first rest induction =>
      obtain ⟨fresh, distinctLater⟩ := List.nodup_cons.1 distinct
      cases place with
      | zero =>
          cases found
          rw [List.dropWhile_cons_of_neg (by simp), List.drop_zero]
      | succ place =>
          rw [List.getElem?_cons_succ] at found
          have differs : first ≠ current :=
            fun same => fresh (same ▸ List.mem_of_getElem? found)
          rw [List.dropWhile_cons_of_pos (by simpa using differs), List.drop_succ_cons,
            induction distinctLater found]

/-- Each position stands in the path where it is said to be seen. -/
def Records {count : Nat} (seenAt : Fin count → Option Nat) (path : List (Fin count)) : Prop :=
  ∀ position place, seenAt position = some place ↔ path[place]? = some position

theorem Records.distinct {count : Nat} {seenAt : Fin count → Option Nat} {path : List (Fin count)}
    (records : Records seenAt path) : path.Nodup := by
  rw [List.nodup_iff_getElem?_ne_getElem?]
  intro first second before inside same
  have found : path[second]? = some path[second] := List.getElem?_eq_getElem inside
  have atSecond := (records path[second] second).2 found
  rw [(records path[second] first).2 (same.trans found)] at atSecond
  cases atSecond
  exact absurd before (lt_irrefl _)

theorem Records.mem_iff {count : Nat} {seenAt : Fin count → Option Nat} {path : List (Fin count)}
    (records : Records seenAt path) (position : Fin count) :
    position ∈ path ↔ seenAt position ≠ none := by
  rw [List.mem_iff_getElem?, Option.ne_none_iff_exists']
  exact exists_congr fun place => (records position place).symm

theorem Records.length_le {seenAt : Fin pipeline.steps.length → Option Nat}
    {path : List (Fin pipeline.steps.length)} (records : Records seenAt path)
    (inside : ∀ position ∈ path, placed position = false) :
    path.length ≤ (nodesLeft pipeline placed).length := by
  have included : path ⊆ (List.finRange _).filter fun position => !placed position := by
    intro position member
    rw [List.mem_filter, inside position member]
    exact ⟨List.mem_finRange position, rfl⟩
  rw [nodesLeft, List.length_map]
  exact (List.subperm_of_subset records.distinct included).length_le

theorem Records.step {count : Nat} {seenAt : Fin count → Option Nat} {path : List (Fin count)}
    (records : Records seenAt path) {current : Fin count} (unseen : seenAt current = none) :
    Records (Function.update seenAt current (some path.length)) (path ++ [current]) := by
  have fresh (place : Nat) : path[place]? ≠ some current := by
    intro found
    rw [(records current place).2 found] at unseen
    cases unseen
  intro position place
  rw [List.getElem?_append, List.getElem?_singleton]
  by_cases same : position = current
  · subst same
    rw [Function.update_self]
    split
    · rename_i before
      simp [fresh, before.ne']
    · split <;> simp <;> omega
  · rw [Function.update_of_ne same, records position place]
    split
    · rfl
    · rename_i behind
      have none : path[place]? = none := List.getElem?_eq_none (by omega)
      rw [none]
      split <;> simp [Ne.symm same]

theorem ids_seen_iff (distinct : pipeline.HasDistinctIds)
    {seenAt : Fin pipeline.steps.length → Option Nat} {path : List (Fin pipeline.steps.length)}
    (records : Records seenAt path) (position : Fin pipeline.steps.length) :
    (path.map pipeline.idAt).reverse.contains (pipeline.idAt position) = true ↔
      seenAt position ≠ none := by
  rw [List.contains_iff_mem, List.mem_reverse,
    List.mem_map_of_injective (id_at_injective distinct), records.mem_iff]

/-- The part of a path from a position on is the same by name and by place. -/
theorem ids_from_seen (distinct : pipeline.HasDistinctIds)
    {seenAt : Fin pipeline.steps.length → Option Nat} {path : List (Fin pipeline.steps.length)}
    (records : Records seenAt path) {position : Fin pipeline.steps.length} {place : Nat}
    (seen : seenAt position = some place) :
    ((path.map pipeline.idAt).dropWhile fun earlier => earlier ≠ pipeline.idAt position) =
      (path.drop place).map pipeline.idAt := by
  have same : ∀ other, pipeline.idAt other = pipeline.idAt position ↔ other = position :=
    fun other => (id_at_injective distinct).eq_iff
  rw [← drop_while_ne records.distinct ((records position place).1 seen), List.dropWhile_map]
  simp only [Function.comp_def, ne_eq, same]

theorem walk_among_left (distinct : pipeline.HasDistinctIds) (linked : pipeline.Linked links)
    {seenAt : Fin pipeline.steps.length → Option Nat}
    {path cycle : List (Fin pipeline.steps.length)} {current : Fin pipeline.steps.length}
    {fuel : Nat} (records : Records seenAt path)
    (inside : ∀ position ∈ current :: path, placed position = false)
    (enough : (nodesLeft pipeline placed).length < fuel + path.length)
    (closes : links.walk placed seenAt path current = .closed cycle) :
    walkAmong (nodesLeft pipeline placed) fuel (path.map pipeline.idAt).reverse
      (pipeline.idAt current) = cycle.map pipeline.idAt := by
  induction fuel generalizing seenAt path current with
  | zero =>
      -- The path has no position twice, so the fuel lasts until one comes up again.
      have bounded := records.length_le fun position member =>
        inside position (List.mem_cons_of_mem _ member)
      omega
  | succ fuel induction =>
      have visited := ids_seen_iff distinct records current
      rw [Links.walk] at closes
      rw [walkAmong]
      split at closes
      · rename_i place seen
        cases closes
        rw [if_pos (visited.2 (by rw [seen]; exact Option.some_ne_none place)),
          List.reverse_reverse, ids_from_seen distinct records seen, List.map_append,
          List.map_singleton]
      · rename_i unseen
        have unplaced := inside current List.mem_cons_self
        rw [if_neg (mt visited.1 (not_not.2 unseen)), next_among_left distinct linked unplaced]
        split at closes
        · rename_i next found
          rw [found]
          have isUnplaced : placed next = false := by simpa using List.find?_some found
          have nextInside : ∀ position ∈ next :: (path ++ [current]), placed position = false := by
            intro position member
            rcases List.mem_cons.1 member with rfl | earlier
            · exact isUnplaced
            · rw [List.mem_append, List.mem_singleton] at earlier
              exact inside position (List.mem_cons.2 earlier.symm)
          have enoughLater : (nodesLeft pipeline placed).length <
              fuel + (path ++ [current]).length := by
            rw [List.length_append, List.length_singleton]
            omega
          have later := induction (records.step unseen) nextInside enoughLater closes
          rwa [List.map_append, List.reverse_append] at later
        · cases closes

theorem cycle_among_left (distinct : pipeline.HasDistinctIds) (linked : pipeline.Linked links)
    {cycle : List (Fin pipeline.steps.length)} (closes : links.findCycle placed = .closed cycle) :
    cycleAmong (nodesLeft pipeline placed) = cycle.map pipeline.idAt := by
  unfold Links.findCycle at closes
  split at closes
  · rename_i start found
    have records : Records (fun _ : Fin pipeline.steps.length => none) [] := fun _ _ => by simp
    have unplaced : placed start = false := by simpa using List.find?_some found
    rw [← List.head?_filter, List.head?_eq_some_iff] at found
    obtain ⟨others, split⟩ := found
    have walked := walk_among_left distinct linked records
      (by simpa using unplaced) (Nat.lt_succ_self (nodesLeft pipeline placed).length) closes
    rw [nodesLeft, split] at walked ⊢
    exact walked
  · cases closes

end Search

section Building

variable {pipeline : Pipeline} {links : Links pipeline.steps.length}
  {state : Countdown pipeline.steps.length}

theorem ended_eq_build (distinct : pipeline.HasDistinctIds) (known : pipeline.KnowsDependencies)
    (linked : pipeline.Linked links) {rounds : Nat} {ending : CountdownEnd pipeline.steps.length}
    (reached : Countdown.Reached links rounds state) (ends : state.round links = .ended ending) :
    pipeline.ended? ending = some (Graph.build pipeline) := by
  have sound := (reached.sound linked.toMirrored).1
  obtain ⟨waves, stuck⟩ := placement_reached distinct linked reached
  have allStuck : Graph.stuckNodes pipeline =
      waitingNodes (placeWaves (pipeline.waiting state)).stuck := by
    rw [Graph.stuckNodes, stuck]
  rw [Graph.build_of_known distinct known, allStuck]
  rcases Countdown.end_cases linked.toMirrored sound ends with
    ⟨none, rfl⟩ | ⟨some, noneReady, rfl, cycle, closes⟩
  · have nothing : pipeline.waiting state = [] := by
      rw [waiting, List.eq_nil_of_length_eq_zero (sound.remaining.symm.trans none), List.map_nil]
    have noWaves : placeWaves [] = ⟨[], []⟩ := by
      rw [placeWaves, dif_pos List.filter_nil]
    rw [nothing, noWaves, List.append_nil] at waves
    rw [nothing, noWaves, waves]
    rfl
  · have noneWaits : (pipeline.waiting state).filter WaitingNode.isReady = [] := by
      rw [ready_waiting, noneReady, List.map_nil]
    have left : waitingNodes (placeWaves (pipeline.waiting state)).stuck =
        nodesLeft pipeline state.placed := by
      rw [placeWaves, dif_pos noneWaits]
      exact pipeline.waiting_nodes state
    have someLeft : nodesLeft pipeline state.placed ≠ [] := by
      rw [nodesLeft, ne_eq, List.map_eq_nil_iff]
      intro empty
      exact some (sound.remaining.trans (List.length_eq_zero_iff.2 empty))
    rw [left, if_neg someLeft, cycle_among_left distinct linked closes, closes]
    rfl

theorem placed_ids_iff (distinct : pipeline.HasDistinctIds)
    {position : Fin pipeline.steps.length} :
    pipeline.idAt position ∈ pipeline.placedIds state ↔ state.placed position = true := by
  rw [placedIds, List.mem_map_of_injective (id_at_injective distinct), List.mem_filter]
  exact and_iff_right (List.mem_finRange position)

theorem degree_eq_card (distinct : pipeline.HasDistinctIds) (linked : pipeline.Linked links)
    (tallied : Countdown.Tallied links state) (position : Fin pipeline.steps.length) :
    state.degree position = ((pipeline.stepAt position).dependsOn.toFinset.filter
      fun dependency => dependency ∉ pipeline.placedIds state).card := by
  have each : (((links.dependencies position).filter fun dependency =>
      !state.placed dependency).map pipeline.idAt).Nodup :=
    ((linked.dependencies_distinct position).filter _).map (id_at_injective distinct)
  rw [tallied, ← List.length_map pipeline.idAt, ← List.toFinset_card_of_nodup each]
  congr 1
  ext id
  rw [List.mem_toFinset, Finset.mem_filter, List.mem_toFinset, ← mem_node_dependencies]
  change _ ↔ id ∈ (pipeline.nodeAt position).dependencies ∧ _
  rw [← linked.named]
  constructor
  · intro member
    obtain ⟨dependency, missing, rfl⟩ := List.mem_map.1 member
    obtain ⟨listed, isUnplaced⟩ := List.mem_filter.1 missing
    rw [placed_ids_iff distinct]
    exact ⟨List.mem_map_of_mem listed, by simpa using isUnplaced⟩
  · rintro ⟨member, absent⟩
    obtain ⟨dependency, listed, rfl⟩ := List.mem_map.1 member
    rw [placed_ids_iff distinct] at absent
    exact List.mem_map_of_mem (List.mem_filter.2 ⟨listed, by simpa using absent⟩)

theorem remaining_eq_card (sound : Countdown.Sound links state) :
    state.remaining = (Finset.univ.filter fun position => state.placed position = false).card := by
  rw [sound.remaining, ← List.toFinset_card_of_nodup Countdown.unplaced_distinct]
  congr 1
  ext position
  rw [List.mem_toFinset, Countdown.mem_unplaced, Finset.mem_filter]
  exact (and_iff_right (Finset.mem_univ position)).symm

end Building

end Pipeline

/-- What holds when a round begins and `rounds` others are over. -/
structure Pipeline.CountsDown (pipeline : Pipeline) (links : Links pipeline.steps.length)
    (rounds : Nat) (state : Countdown pipeline.steps.length) : Prop where
  degree : ∀ position, state.degree position =
    ((pipeline.stepAt position).dependsOn.toFinset.filter
      fun dependency => dependency ∉ pipeline.placedIds state).card
  remaining : state.remaining =
    (Finset.univ.filter fun position => state.placed position = false).card
  /-- Every round that is over has placed a step. -/
  rounds_le : rounds + state.remaining ≤ pipeline.steps.length
  waiting : pipeline.waiting state =
    afterWave^[rounds] ((pipeline.steps.map Graph.nodeOf).map WaitingNode.ofNode)
  never_below_zero : state.round links ≠ .ended .belowZero
  search_closes : ∀ search, state.round links = .ended (.stuck search) →
    (∃ position, state.placed position = false) ∧
      (∀ position, state.placed position = false →
        ∃ dependency ∈ links.dependencies position, state.placed dependency = false) ∧
      ∃ cycle, search = .closed cycle

theorem counts_down {pipeline : Pipeline} (distinct : pipeline.HasDistinctIds)
    {links : Links pipeline.steps.length} (linked : pipeline.Linked links) {rounds : Nat}
    {state : Countdown pipeline.steps.length} (reached : Countdown.Reached links rounds state) :
    pipeline.CountsDown links rounds state := by
  obtain ⟨sound, bounded⟩ := reached.sound linked.toMirrored
  have ends {ending : CountdownEnd pipeline.steps.length} :
      state.round links = .ended ending → _ := Countdown.end_cases linked.toMirrored sound
  constructor
  · exact Pipeline.degree_eq_card distinct linked sound.tallied
  · exact Pipeline.remaining_eq_card sound
  · exact bounded
  · exact Pipeline.waiting_reached distinct linked reached
  · intro below
    rcases ends below with ⟨_, finished⟩ | ⟨_, _, stuck, _⟩
    · cases finished
    · cases stuck
  · intro search isStuck
    rcases ends isStuck with ⟨_, finished⟩ | ⟨some, noneReady, stuck, cycle, closes⟩
    · cases finished
    · cases stuck
      exact ⟨Countdown.unplaced_of_remaining sound some,
        fun _ => Countdown.unplaced_dependency sound noneReady, cycle, closes⟩

/-- In every round each counter is the number of the distinct dependencies of its step that are
not placed, and the steps that are not placed are counted as well, so no subtraction fails. There
are at most as many rounds as steps. A search is started where some steps are left that each
depend on another one of them, and it comes to a cycle. Building a graph is this counting down. -/
theorem counters_never_go_wrong {pipeline : Pipeline} (distinct : pipeline.HasDistinctIds)
    (known : pipeline.KnowsDependencies) :
    ∃ links, pipeline.link = .ok links ∧ pipeline.Linked links ∧
      (∀ {rounds : Nat} {state : Countdown pipeline.steps.length},
        Countdown.Reached links rounds state → pipeline.CountsDown links rounds state) ∧
      ∃ rounds state ending, rounds ≤ pipeline.steps.length ∧
        Countdown.Reached links rounds state ∧ state.round links = .ended ending ∧
        pipeline.ended? ending = some (Graph.build pipeline) := by
  obtain ⟨links, isLinked, linked⟩ := Pipeline.link_known distinct known
  obtain ⟨rounds, state, ending, reached, ends⟩ :=
    Countdown.Reached.exists_end linked.toMirrored (.start : Countdown.Reached links 0 _)
  have bounded := (counts_down distinct linked reached).rounds_le
  exact ⟨links, isLinked, linked, counts_down distinct linked, rounds, state, ending, by omega,
    reached, ends, Pipeline.ended_eq_build distinct known linked reached ends⟩

/-- A dependency that is listed twice counts once, and a loop is found. -/
theorem release_and_looped_pipelines_counted :
    (∃ links, releasePipeline.link = .ok links ∧
      (Countdown.start links).degree ⟨0, by decide⟩ = 2 ∧
      ∃ rounds state ending, rounds ≤ 6 ∧ Countdown.Reached links rounds state ∧
        state.round links = .ended ending ∧
        releasePipeline.ended? ending = some (Graph.build releasePipeline)) ∧
    ∃ links rounds state cycle, (loopedPipeline "report" "test").link = .ok links ∧
      Countdown.Reached links rounds state ∧ state.round links = .ended (.stuck (.closed cycle)) ∧
      cycle.map (loopedPipeline "report" "test").idAt = ["build", "test", "build"] := by
  constructor
  · have distinct : releasePipeline.HasDistinctIds := by
      simp [releasePipeline, Pipeline.HasDistinctIds, Pipeline.stepIds]
    have known : releasePipeline.KnowsDependencies := by
      simp [releasePipeline, Pipeline.KnowsDependencies, Pipeline.stepIds]
    obtain ⟨links, isLinked, _, counts, ends⟩ := counters_never_go_wrong distinct known
    have nonePlaced : releasePipeline.placedIds (.start links) = [] := by
      simp [Pipeline.placedIds, Countdown.start]
    refine ⟨links, isLinked, ?_, ends⟩
    rw [(counts .start).degree, nonePlaced]
    decide
  · have distinct : (loopedPipeline "report" "test").HasDistinctIds := by
      simp [loopedPipeline, Pipeline.HasDistinctIds, Pipeline.stepIds]
    have known : (loopedPipeline "report" "test").KnowsDependencies := by
      simp [loopedPipeline, Pipeline.KnowsDependencies, Pipeline.stepIds]
    have refused : Graph.build (loopedPipeline "report" "test") =
        .error (.cyclicDependency ["build", "test", "build"]) := by
      cbv
    obtain ⟨links, isLinked, _, counts, rounds, state, ending, _, reached, ends, built⟩ :=
      counters_never_go_wrong distinct known
    rw [refused] at built
    cases ending with
    | finished waves => cases built
    | belowZero => cases built
    | stuck search =>
        obtain ⟨_, _, cycle, rfl⟩ := (counts reached).search_closes search ends
        simp only [Pipeline.ended?, Option.some.injEq, Except.error.injEq,
          GraphError.cyclicDependency.injEq] at built
        exact ⟨links, rounds, state, cycle, isLinked, reached, ends, built⟩

end PipelineWaves
