import Mathlib.Data.Fintype.Card
import PipelineWaves.Proofs.Graph.Cycle
import PipelineWaves.Proofs.Graph.Links

/-!
# Counting down dependencies

The rounds that place steps, with a counter for each position and a flag that says whether it is
placed. A round places all positions with a counter of zero and takes one off the counter of each
of their dependents; a subtraction that has nothing to take from ends the rounds. One invariant,
`Tallied`, is kept by the placing of every single position: each counter is the number of
dependencies that are not placed. With it no subtraction fails, and the rounds are those of
`placeWaves`, counter by counter.
-/

set_option autoImplicit false

namespace PipelineWaves

/-- The search for a cycle: it has no start, or comes to a position without an unplaced
dependency, or back to one that it has seen. -/
inductive CycleSearch (count : Nat) where
  | noStart
  | deadEnd (path : List (Fin count))
  | closed (cycle : List (Fin count))

inductive CountdownEnd (count : Nat) where
  | finished (waves : List (List (Fin count)))
  | stuck (search : CycleSearch count)
  /-- A number was to be made smaller than zero. -/
  | belowZero

structure Countdown (count : Nat) where
  degree : Fin count → Nat
  placed : Fin count → Bool
  remaining : Nat
  waves : List (List (Fin count))

inductive CountdownRound (count : Nat) where
  | onward (next : Countdown count)
  | ended (ending : CountdownEnd count)

namespace Links

section Searching

variable {count : Nat} (links : Links count) (placed : Fin count → Bool)

/-- Walks on from `current`; `seenAt` says where in the path a position stands. -/
def walk (seenAt : Fin count → Option Nat) (path : List (Fin count)) (current : Fin count) :
    CycleSearch count :=
  match _seen : seenAt current with
  | some place => .closed (path.drop place ++ [current])
  | none =>
      match (links.dependencies current).find? fun dependency => !placed dependency with
      | some next =>
          walk (Function.update seenAt current (some path.length)) (path ++ [current]) next
      | none => .deadEnd (path ++ [current])
termination_by (Finset.univ.filter fun position => seenAt position = none).card
decreasing_by
  -- Each move sees one more position.
  apply Finset.card_lt_card
  rw [Finset.ssubset_iff_of_subset]
  · exact ⟨current, by simpa using _seen, by simp⟩
  · intro position member
    by_cases same : position = current
    · simp [same] at member
    · simpa [same] using member

def findCycle : CycleSearch count :=
  match (List.finRange count).find? fun position => !placed position with
  | some start => links.walk placed (fun _ => none) [] start
  | none => .noStart

end Searching

theorem walk_closes {count : Nat} {links : Links count} {placed : Fin count → Bool}
    (leadsOn : ∀ position, placed position = false →
      ∃ dependency ∈ links.dependencies position, placed dependency = false)
    {seenAt : Fin count → Option Nat} {path : List (Fin count)} {current : Fin count}
    (unplaced : placed current = false) :
    ∃ cycle, links.walk placed seenAt path current = .closed cycle := by
  fun_induction walk links placed seenAt path current with
  | case1 seenAt path current place seen => exact ⟨_, rfl⟩
  | case2 seenAt path current unseen next found induction =>
      exact induction (by simpa using List.find?_some found)
  | case3 seenAt path current unseen absent =>
      obtain ⟨dependency, member, isUnplaced⟩ := leadsOn current unplaced
      have isPlaced := List.find?_eq_none.1 absent dependency member
      simp [isUnplaced] at isPlaced

theorem find_cycle_closes {count : Nat} {links : Links count} {placed : Fin count → Bool}
    (leadsOn : ∀ position, placed position = false →
      ∃ dependency ∈ links.dependencies position, placed dependency = false)
    {position : Fin count} (unplaced : placed position = false) :
    ∃ cycle, links.findCycle placed = .closed cycle := by
  unfold findCycle
  split
  · rename_i start found
    exact walk_closes leadsOn (by simpa using List.find?_some found)
  · rename_i absent
    have isPlaced := List.find?_eq_none.1 absent position (List.mem_finRange position)
    simp [unplaced] at isPlaced

end Links

namespace Countdown

section Rounds

variable {count : Nat} (links : Links count) (state : Countdown count)

def start : Countdown count where
  degree position := (links.dependencies position).length
  placed _ := false
  remaining := count
  waves := []

def unplaced : List (Fin count) :=
  (List.finRange count).filter fun position => !state.placed position

def ready : List (Fin count) :=
  (List.finRange count).filter fun position => !state.placed position && state.degree position = 0

def takeOne (degree : Fin count → Nat) (position : Fin count) : Option (Fin count → Nat) :=
  if degree position = 0 then none
  else some (Function.update degree position (degree position - 1))

def place (position : Fin count) : Option (Countdown count) :=
  ((links.dependents position).foldlM takeOne state.degree).map fun degree =>
    { state with degree, placed := Function.update state.placed position true }

/-- Takes the nodes of a wave off the remaining ones. -/
def close (wave : List (Fin count)) : Option (Countdown count) :=
  if state.remaining < wave.length then none
  else
    some { state with remaining := state.remaining - wave.length, waves := state.waves ++ [wave] }

def round : CountdownRound count :=
  if state.remaining = 0 then .ended (.finished state.waves)
  else if state.ready = [] then .ended (.stuck (links.findCycle state.placed))
  else
    match (state.ready.foldlM (place links) state).bind fun next => next.close state.ready with
    | some next => .onward next
    | none => .ended .belowZero

/-- The states in which rounds begin, by the number of rounds before. -/
inductive Reached : Nat → Countdown count → Prop where
  | start : Reached 0 (start links)
  | next {rounds : Nat} {state next : Countdown count} (reached : Reached rounds state)
      (goesOn : state.round links = .onward next) : Reached (rounds + 1) next

end Rounds

section Counters

variable {count : Nat} {links : Links count} {state : Countdown count}

/-- Every counter is the number of dependencies that are not placed. -/
def Tallied (links : Links count) (state : Countdown count) : Prop :=
  ∀ position, state.degree position =
    ((links.dependencies position).filter fun dependency => !state.placed dependency).length

theorem take_all {positions : List (Fin count)} {degree : Fin count → Nat}
    (distinct : positions.Nodup) (positive : ∀ position ∈ positions, degree position ≠ 0) :
    positions.foldlM takeOne degree = some fun position =>
      if position ∈ positions then degree position - 1 else degree position := by
  induction positions generalizing degree with
  | nil => simp
  | cons first rest induction =>
      obtain ⟨fresh, distinctLater⟩ := List.nodup_cons.1 distinct
      have notZero := positive first List.mem_cons_self
      have unchanged : ∀ position ∈ rest,
          Function.update degree first (degree first - 1) position = degree position :=
        fun _ member => Function.update_of_ne (ne_of_mem_of_not_mem member fresh) _ _
      have later : ∀ position ∈ rest,
          Function.update degree first (degree first - 1) position ≠ 0 := by
        intro position member
        rw [unchanged position member]
        exact positive position (List.mem_cons_of_mem _ member)
      rw [List.foldlM_cons, takeOne, if_neg notZero, Option.bind_eq_bind, Option.bind_some,
        induction distinctLater later]
      congr 1
      funext position
      by_cases same : position = first
      · subst same
        simp [fresh]
      · simp [same]

/-- Placing a position takes it out of every list of those that are not placed. -/
theorem unplaced_after_update {positions : List (Fin count)} (placed : Fin count → Bool)
    {position : Fin count} (distinct : positions.Nodup) :
    (positions.filter fun other => !Function.update placed position true other) =
      (positions.filter fun other => !placed other).erase position := by
  rw [(distinct.filter _).erase_eq_filter, List.filter_filter]
  apply List.filter_congr
  intro other _
  by_cases same : other = position
  · simp [same]
  · simp [same]

theorem place_tallied (mirrored : links.Mirrored) (tallied : Tallied links state)
    {position : Fin count} (unplaced : state.placed position = false) :
    ∃ next, state.place links position = some next ∧ Tallied links next ∧
      next.placed = Function.update state.placed position true ∧
      next.remaining = state.remaining ∧ next.waves = state.waves := by
  have missing : ∀ {other}, other ∈ links.dependents position ↔ position ∈
      (links.dependencies other).filter fun dependency => !state.placed dependency := by
    intro other
    rw [← mirrored.mirror, List.mem_filter, unplaced]
    simp
  have positive : ∀ other ∈ links.dependents position, state.degree other ≠ 0 := by
    intro other member
    rw [tallied]
    exact List.length_pos_iff.2 (List.ne_nil_of_mem (missing.1 member)) |>.ne'
  have taken := take_all (mirrored.dependents_distinct position) positive
  rw [place, taken]
  refine ⟨_, rfl, ?_, rfl, rfl, rfl⟩
  intro other
  dsimp only
  rw [unplaced_after_update _ (mirrored.dependencies_distinct other), List.length_erase, tallied]
  exact if_congr missing rfl rfl

theorem place_all (mirrored : links.Mirrored) {wave : List (Fin count)} (distinct : wave.Nodup)
    (tallied : Tallied links state) (unplaced : ∀ position ∈ wave, state.placed position = false) :
    ∃ next, wave.foldlM (place links) state = some next ∧ Tallied links next ∧
      (∀ position, next.placed position = (state.placed position || decide (position ∈ wave))) ∧
      next.remaining = state.remaining ∧ next.waves = state.waves := by
  induction wave generalizing state with
  | nil => exact ⟨state, rfl, tallied, by simp, rfl, rfl⟩
  | cons first rest induction =>
      obtain ⟨fresh, distinctLater⟩ := List.nodup_cons.1 distinct
      obtain ⟨between, isPlaced, talliedBetween, placed, remaining, waves⟩ :=
        place_tallied mirrored tallied (unplaced first List.mem_cons_self)
      have unplacedLater : ∀ position ∈ rest, between.placed position = false := by
        intro position member
        rw [placed, Function.update_of_ne (ne_of_mem_of_not_mem member fresh)]
        exact unplaced position (List.mem_cons_of_mem _ member)
      obtain ⟨next, allPlaced, talliedNext, placedNext, remainingNext, wavesNext⟩ :=
        induction distinctLater talliedBetween unplacedLater
      refine ⟨next, ?_, talliedNext, ?_, remainingNext.trans remaining, wavesNext.trans waves⟩
      · rw [List.foldlM_cons, isPlaced]
        exact allPlaced
      · intro position
        rw [placedNext, placed]
        by_cases same : position = first
        · simp [same]
        · simp [same]

end Counters

section Rounds

variable {count : Nat} {links : Links count} {state : Countdown count}

/-- What holds when a round begins. -/
structure Sound (links : Links count) (state : Countdown count) : Prop where
  tallied : Tallied links state
  remaining : state.remaining = state.unplaced.length

theorem mem_unplaced {position : Fin count} :
    position ∈ state.unplaced ↔ state.placed position = false := by
  simp [unplaced]

theorem unplaced_distinct : state.unplaced.Nodup := (List.nodup_finRange count).filter _

theorem ready_eq :
    state.ready = state.unplaced.filter fun position => state.degree position = 0 := by
  rw [unplaced, List.filter_filter]
  apply List.filter_congr
  intro position _
  exact Bool.and_comm _ _

theorem mem_ready {position : Fin count} :
    position ∈ state.ready ↔ state.placed position = false ∧ state.degree position = 0 := by
  simp [ready]

theorem start_sound (links : Links count) : Sound links (start links) where
  tallied position := by simp [start]
  remaining := by simp [start, unplaced]

theorem unplaced_after_wave {next : Countdown count}
    (placed : ∀ position, next.placed position =
      (state.placed position || decide (position ∈ state.ready))) :
    next.unplaced = state.unplaced.filter fun position => !decide (state.degree position = 0) := by
  rw [unplaced, unplaced, List.filter_filter]
  apply List.filter_congr
  intro position _
  rw [placed]
  cases found : state.placed position <;> simp [mem_ready, found]

/-- One round places all that is ready and nothing else. -/
structure Advances (links : Links count) (state next : Countdown count) : Prop where
  some : state.ready ≠ []
  sound : Sound links next
  placed : ∀ position, next.placed position =
    (state.placed position || decide (position ∈ state.ready))
  remaining : next.remaining + state.ready.length = state.remaining
  waves : next.waves = state.waves ++ [state.ready]

theorem Advances.remaining_lt {next : Countdown count} (advances : Advances links state next) :
    next.remaining < state.remaining := by
  have positive := List.length_pos_iff.2 advances.some
  have split := advances.remaining
  omega

/-- A round with positions to place does not fail. -/
theorem round_onward (mirrored : links.Mirrored) (sound : Sound links state)
    (some : state.ready ≠ []) :
    ∃ next, state.round links = .onward next ∧ Advances links state next := by
  have fresh : ∀ position ∈ state.ready, state.placed position = false :=
    fun _ member => (mem_ready.1 member).1
  have distinct : state.ready.Nodup := (List.nodup_finRange count).filter _
  obtain ⟨placedAll, isPlaced, tallied, placed, remaining, waves⟩ :=
    place_all mirrored distinct sound.tallied fresh
  have parts := List.length_eq_length_filter_add (l := state.unplaced)
    fun position => decide (state.degree position = 0)
  rw [← ready_eq, ← unplaced_after_wave placed, ← sound.remaining] at parts
  have positive : 0 < state.ready.length := List.length_pos_iff.2 some
  have notZero : state.remaining ≠ 0 := by omega
  have enough : ¬placedAll.remaining < state.ready.length := by omega
  have left : placedAll.remaining - state.ready.length = placedAll.unplaced.length := by omega
  rw [round, if_neg notZero, if_neg some, isPlaced, Option.bind_some, close, if_neg enough]
  refine ⟨_, rfl, some, ⟨tallied, left⟩, placed, ?_, by rw [← waves]⟩
  dsimp only
  omega

theorem round_finished (none : state.remaining = 0) :
    state.round links = .ended (.finished state.waves) := by
  rw [round, if_pos none]

theorem round_stuck (some : state.remaining ≠ 0) (noneReady : state.ready = []) :
    state.round links = .ended (.stuck (links.findCycle state.placed)) := by
  rw [round, if_neg some, if_pos noneReady]

theorem advances_of_onward (mirrored : links.Mirrored) (sound : Sound links state)
    {next : Countdown count} (goesOn : state.round links = .onward next) :
    Advances links state next := by
  have some : state.ready ≠ [] := by
    intro noneReady
    rw [round, if_pos noneReady] at goesOn
    split at goesOn <;> cases goesOn
  obtain ⟨after, isNext, advances⟩ := round_onward mirrored sound some
  rw [goesOn] at isNext
  cases isNext
  exact advances

theorem Reached.sound (mirrored : links.Mirrored) {rounds : Nat}
    (reached : Reached links rounds state) :
    Sound links state ∧ rounds + state.remaining ≤ count := by
  induction reached with
  | start => exact ⟨start_sound links, by simp [Countdown.start]⟩
  | @next rounds state next reached goesOn induction =>
      obtain ⟨sound, bounded⟩ := induction
      have advances := advances_of_onward mirrored sound goesOn
      have fewer := advances.remaining_lt
      exact ⟨advances.sound, by omega⟩

theorem Reached.exists_end (mirrored : links.Mirrored) {rounds : Nat}
    (reached : Reached links rounds state) :
    ∃ last final ending, Reached links last final ∧ final.round links = .ended ending := by
  induction left : state.remaining using Nat.strong_induction_on generalizing rounds state with
  | _ left induction =>
      cases isRound : state.round links with
      | ended ending => exact ⟨rounds, state, ending, reached, isRound⟩
      | onward next =>
          have advances := advances_of_onward mirrored (reached.sound mirrored).1 isRound
          have fewer := advances.remaining_lt
          exact induction next.remaining (by omega) (.next reached isRound) rfl

theorem unplaced_of_remaining (sound : Sound links state) (some : state.remaining ≠ 0) :
    ∃ position, state.placed position = false := by
  rw [sound.remaining] at some
  obtain ⟨position, member⟩ := List.exists_mem_of_length_pos (Nat.pos_of_ne_zero some)
  exact ⟨position, mem_unplaced.1 member⟩

/-- Where none is ready, each counter still counts a dependency. -/
theorem unplaced_dependency (sound : Sound links state) (noneReady : state.ready = [])
    {position : Fin count} (unplaced : state.placed position = false) :
    ∃ dependency ∈ links.dependencies position, state.placed dependency = false := by
  have notReady : position ∉ state.ready := by
    rw [noneReady]
    exact List.not_mem_nil
  have positive : 0 < state.degree position :=
    Nat.pos_of_ne_zero fun zero => notReady (mem_ready.2 ⟨unplaced, zero⟩)
  rw [sound.tallied] at positive
  obtain ⟨dependency, member⟩ := List.exists_mem_of_length_pos positive
  obtain ⟨listed, isUnplaced⟩ := List.mem_filter.1 member
  exact ⟨dependency, listed, by simpa using isUnplaced⟩

/-- Rounds end when nothing remains, or at a cycle among what is not placed. -/
theorem end_cases (mirrored : links.Mirrored) (sound : Sound links state)
    {ending : CountdownEnd count} (ends : state.round links = .ended ending) :
    (state.remaining = 0 ∧ ending = .finished state.waves) ∨
      (state.remaining ≠ 0 ∧ state.ready = [] ∧
        ending = .stuck (links.findCycle state.placed) ∧
        ∃ cycle, links.findCycle state.placed = .closed cycle) := by
  by_cases none : state.remaining = 0
  · rw [round_finished none] at ends
    cases ends
    exact .inl ⟨none, rfl⟩
  · by_cases noneReady : state.ready = []
    · rw [round_stuck none noneReady] at ends
      cases ends
      obtain ⟨position, unplaced⟩ := unplaced_of_remaining sound none
      exact .inr ⟨none, noneReady, rfl,
        Links.find_cycle_closes (fun _ => unplaced_dependency sound noneReady) unplaced⟩
    · obtain ⟨next, isNext, _⟩ := round_onward mirrored sound noneReady
      rw [ends] at isNext
      cases isNext

end Rounds

end Countdown

end PipelineWaves
