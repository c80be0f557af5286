import Mathlib.Data.List.FinRange
import Mathlib.Logic.Function.Basic
import PipelineWaves.Proofs.Graph.Dependency

/-!
# Links between positions

A graph by position: each position has a list of those that it depends on and a list of those
that depend on it. Both are written in one pass over the steps, one dependency after the other,
and they stay mirrors of each other because a dependency goes into both or into neither. One that
is listed twice goes in once.
-/

set_option autoImplicit false

namespace PipelineWaves

structure Links (count : Nat) where
  dependencies : Fin count → List (Fin count)
  dependents : Fin count → List (Fin count)

namespace Links

section Connecting

variable {count : Nat}

def unconnected (count : Nat) : Links count := ⟨fun _ => [], fun _ => []⟩

/-- Writes down that `position` depends on `other`, unless it is written already. -/
def connect (links : Links count) (position other : Fin count) : Links count :=
  if other ∈ links.dependencies position then links
  else
    { dependencies := Function.update links.dependencies position
        (links.dependencies position ++ [other])
      dependents := Function.update links.dependents other (links.dependents other ++ [position]) }

/-- Each list is the mirror of the other ones, and nothing stands in a list twice. -/
structure Mirrored (links : Links count) : Prop where
  mirror : ∀ position other,
    other ∈ links.dependencies position ↔ position ∈ links.dependents other
  dependencies_distinct : ∀ position, (links.dependencies position).Nodup
  dependents_distinct : ∀ position, (links.dependents position).Nodup

theorem unconnected_mirrored : (unconnected count).Mirrored where
  mirror _ _ := by simp [unconnected]
  dependencies_distinct _ := List.nodup_nil
  dependents_distinct _ := List.nodup_nil

theorem mem_update_append {lists : Fin count → List (Fin count)}
    {place item elsewhere new : Fin count} :
    item ∈ Function.update lists place (lists place ++ [new]) elsewhere ↔
      item ∈ lists elsewhere ∨ elsewhere = place ∧ item = new := by
  by_cases same : elsewhere = place
  · subst same
    simp
  · simp [same]

theorem nodup_update_append {lists : Fin count → List (Fin count)} {place new : Fin count}
    (distinct : ∀ position, (lists position).Nodup) (fresh : new ∉ lists place)
    (position : Fin count) :
    (Function.update lists place (lists place ++ [new]) position).Nodup := by
  by_cases same : position = place
  · subst same
    rw [Function.update_self]
    exact List.nodup_append.2 ⟨distinct position, List.nodup_singleton new,
      fun item member other single equal =>
        fresh (by rw [← List.mem_singleton.1 single, ← equal]; exact member)⟩
  · rw [Function.update_of_ne same]
    exact distinct position

theorem connect_mirrored {links : Links count} (mirrored : links.Mirrored)
    (position other : Fin count) : (links.connect position other).Mirrored := by
  unfold connect
  by_cases listed : other ∈ links.dependencies position
  · rwa [if_pos listed]
  · have unlisted : position ∉ links.dependents other :=
      fun member => listed ((mirrored.mirror position other).2 member)
    rw [if_neg listed]
    constructor
    · intro source target
      dsimp only
      rw [mem_update_append, mem_update_append, mirrored.mirror source target]
      exact or_congr_right and_comm
    · exact nodup_update_append mirrored.dependencies_distinct listed
    · exact nodup_update_append mirrored.dependents_distinct unlisted

theorem connect_elsewhere (links : Links count) {position elsewhere : Fin count}
    (differs : elsewhere ≠ position) (other : Fin count) :
    (links.connect position other).dependencies elsewhere = links.dependencies elsewhere := by
  unfold connect
  split
  · rfl
  · exact Function.update_of_ne differs _ _

end Connecting

end Links

namespace Pipeline

section Positions

variable (pipeline : Pipeline)

def stepAt (position : Fin pipeline.steps.length) : Step := pipeline.steps[position.val]

def idAt (position : Fin pipeline.steps.length) : String := (pipeline.stepAt position).id

def nodeAt (position : Fin pipeline.steps.length) : GraphNode :=
  Graph.nodeOf (pipeline.stepAt position)

def positionOf? (id : String) : Option (Fin pipeline.steps.length) :=
  (List.finRange pipeline.steps.length).find? fun position => pipeline.idAt position = id

theorem steps_by_position :
    (List.finRange pipeline.steps.length).map pipeline.stepAt = pipeline.steps :=
  List.map_getElem_finRange pipeline.steps

theorem ids_by_position :
    (List.finRange pipeline.steps.length).map pipeline.idAt = pipeline.stepIds := by
  rw [stepIds, ← congrArg (List.map Step.id) pipeline.steps_by_position, List.map_map]
  rfl

theorem nodes_by_position :
    (List.finRange pipeline.steps.length).map pipeline.nodeAt =
      pipeline.steps.map Graph.nodeOf := by
  rw [← congrArg (List.map Graph.nodeOf) pipeline.steps_by_position, List.map_map]
  rfl

theorem id_at_declared (position : Fin pipeline.steps.length) :
    pipeline.idAt position ∈ pipeline.stepIds := by
  rw [← pipeline.ids_by_position]
  exact List.mem_map_of_mem (List.mem_finRange position)

theorem position_of_undeclared {id : String} (undeclared : id ∉ pipeline.stepIds) :
    pipeline.positionOf? id = none := by
  rw [positionOf?, List.find?_eq_none]
  intro position _ same
  exact undeclared (of_decide_eq_true same ▸ pipeline.id_at_declared position)

theorem position_of_declared {id : String} (declared : id ∈ pipeline.stepIds) :
    ∃ position, pipeline.positionOf? id = some position ∧ pipeline.idAt position = id := by
  rw [← pipeline.ids_by_position] at declared
  obtain ⟨position, member, same⟩ := List.mem_map.1 declared
  have someFound : (pipeline.positionOf? id).isSome = true :=
    List.find?_isSome.2 ⟨position, member, decide_eq_true same⟩
  obtain ⟨first, found⟩ := Option.isSome_iff_exists.1 someFound
  have isNamed := List.find?_some found
  exact ⟨first, found, of_decide_eq_true isNamed⟩

end Positions

theorem id_at_injective {pipeline : Pipeline} (distinct : pipeline.HasDistinctIds) :
    Function.Injective pipeline.idAt := by
  rw [HasDistinctIds, ← pipeline.ids_by_position] at distinct
  exact fun position other same =>
    List.inj_on_of_nodup_map distinct (List.mem_finRange position) (List.mem_finRange other) same

section Linking

variable (pipeline : Pipeline)

/-- Connects a position with all that its step depends on. -/
def linkEach (position : Fin pipeline.steps.length) :
    List String → Links pipeline.steps.length →
      Except GraphError (Links pipeline.steps.length)
  | [], links => .ok links
  | dependency :: rest, links =>
      match pipeline.positionOf? dependency with
      | none => .error (.unknownDependency (pipeline.idAt position) dependency)
      | some other => linkEach position rest (links.connect position other)

def linkSteps : List (Fin pipeline.steps.length) → Links pipeline.steps.length →
    Except GraphError (Links pipeline.steps.length)
  | [], links => .ok links
  | position :: rest, links => do
      let linked ← pipeline.linkEach position (pipeline.stepAt position).dependsOn links
      linkSteps rest linked

def link : Except GraphError (Links pipeline.steps.length) :=
  pipeline.linkSteps (List.finRange _) (.unconnected _)

end Linking

/-- The links of a pipeline whose dependencies are all known. -/
structure Linked (pipeline : Pipeline) (links : Links pipeline.steps.length) : Prop extends
    links.Mirrored where
  named : ∀ position, (links.dependencies position).map pipeline.idAt =
    (pipeline.nodeAt position).dependencies

theorem erase_dups_concat (names : List String) (name : String) :
    (names ++ [name]).eraseDups =
      if name ∈ names then names.eraseDups else names.eraseDups ++ [name] := by
  rw [List.eraseDups_append]
  by_cases listed : name ∈ names
  · simp [List.removeAll, listed]
  · simp [List.removeAll, listed, List.eraseDups_cons]

/-- One more dependency, by name: it is kept if it is a new one. -/
theorem connect_named {pipeline : Pipeline} (distinct : pipeline.HasDistinctIds)
    {links : Links pipeline.steps.length} {position other : Fin pipeline.steps.length}
    {before : List String}
    (named : (links.dependencies position).map pipeline.idAt = before.eraseDups) :
    ((links.connect position other).dependencies position).map pipeline.idAt =
      (before ++ [pipeline.idAt other]).eraseDups := by
  have listed : other ∈ links.dependencies position ↔ pipeline.idAt other ∈ before := by
    rw [← List.mem_map_of_injective (id_at_injective distinct), named, List.mem_eraseDups]
  rw [erase_dups_concat, Links.connect]
  by_cases member : other ∈ links.dependencies position
  · rw [if_pos member, if_pos (listed.1 member), named]
  · rw [if_neg member, if_neg (mt listed.2 member)]
    dsimp only
    rw [Function.update_self, List.map_append, named, List.map_singleton]

theorem link_each_known {pipeline : Pipeline} (distinct : pipeline.HasDistinctIds)
    {position : Fin pipeline.steps.length} {dependencies before : List String}
    {links : Links pipeline.steps.length}
    (known : ∀ dependency ∈ dependencies, dependency ∈ pipeline.stepIds)
    (mirrored : links.Mirrored)
    (named : (links.dependencies position).map pipeline.idAt = before.eraseDups) :
    ∃ linked, pipeline.linkEach position dependencies links = .ok linked ∧ linked.Mirrored ∧
      (linked.dependencies position).map pipeline.idAt = (before ++ dependencies).eraseDups ∧
      ∀ elsewhere, elsewhere ≠ position →
        linked.dependencies elsewhere = links.dependencies elsewhere := by
  induction dependencies generalizing links before with
  | nil => exact ⟨links, rfl, mirrored, by rw [List.append_nil, named], fun _ _ => rfl⟩
  | cons dependency rest induction =>
      obtain ⟨other, found, same⟩ :=
        pipeline.position_of_declared (known dependency List.mem_cons_self)
      have later : ∀ entry ∈ rest, entry ∈ pipeline.stepIds :=
        fun entry member => known entry (List.mem_cons_of_mem _ member)
      obtain ⟨linked, isLinked, linkedMirrored, linkedNamed, unchanged⟩ :=
        induction later (Links.connect_mirrored mirrored position other)
          (connect_named distinct named)
      rw [same, List.append_assoc, List.singleton_append] at linkedNamed
      refine ⟨linked, by rw [linkEach, found]; exact isLinked, linkedMirrored, linkedNamed, ?_⟩
      intro elsewhere differs
      rw [unchanged elsewhere differs, Links.connect_elsewhere links differs]

theorem link_steps_known {pipeline : Pipeline} (distinct : pipeline.HasDistinctIds)
    (known : pipeline.KnowsDependencies) {positions : List (Fin pipeline.steps.length)}
    {links : Links pipeline.steps.length} (each : positions.Nodup) (mirrored : links.Mirrored)
    (blank : ∀ position ∈ positions, links.dependencies position = []) :
    ∃ linked, pipeline.linkSteps positions links = .ok linked ∧ linked.Mirrored ∧
      (∀ position ∈ positions, (linked.dependencies position).map pipeline.idAt =
        (pipeline.nodeAt position).dependencies) ∧
      ∀ elsewhere, elsewhere ∉ positions →
        linked.dependencies elsewhere = links.dependencies elsewhere := by
  induction positions generalizing links with
  | nil =>
      exact ⟨links, rfl, mirrored, fun _ member => absurd member List.not_mem_nil, fun _ _ => rfl⟩
  | cons position rest induction =>
      obtain ⟨fresh, eachLater⟩ := List.nodup_cons.1 each
      have nothingYet :
          (links.dependencies position).map pipeline.idAt = ([] : List String).eraseDups := by
        rw [blank position List.mem_cons_self]
        rfl
      have declared : pipeline.stepAt position ∈ pipeline.steps := List.getElem_mem _
      obtain ⟨first, isFirst, firstMirrored, firstNamed, firstElsewhere⟩ :=
        link_each_known distinct (known _ declared) mirrored nothingYet
      rw [List.nil_append] at firstNamed
      have blankLater : ∀ other ∈ rest, first.dependencies other = [] := by
        intro other member
        have differs : other ≠ position := fun same => fresh (same ▸ member)
        rw [firstElsewhere other differs]
        exact blank other (List.mem_cons_of_mem _ member)
      obtain ⟨linked, isLinked, linkedMirrored, linkedNamed, unchanged⟩ :=
        induction eachLater firstMirrored blankLater
      refine ⟨linked, by rw [linkSteps, isFirst]; exact isLinked, linkedMirrored, ?_, ?_⟩
      · intro other member
        rcases List.mem_cons.1 member with rfl | inRest
        · rw [unchanged other fresh]
          exact firstNamed
        · exact linkedNamed other inRest
      · intro elsewhere outside
        rw [List.mem_cons, not_or] at outside
        rw [unchanged elsewhere outside.2, firstElsewhere elsewhere outside.1]

theorem link_known {pipeline : Pipeline} (distinct : pipeline.HasDistinctIds)
    (known : pipeline.KnowsDependencies) :
    ∃ links, pipeline.link = .ok links ∧ pipeline.Linked links := by
  obtain ⟨links, isLinked, mirrored, named, _⟩ := link_steps_known distinct known
    (List.nodup_finRange _) Links.unconnected_mirrored fun _ _ => rfl
  exact ⟨links, isLinked, mirrored, fun position => named position (List.mem_finRange position)⟩

theorem link_each_unknown (pipeline : Pipeline) {position : Fin pipeline.steps.length}
    {dependencies : List String} {unknown : String} (links : Links pipeline.steps.length)
    (found : (dependencies.find? fun dependency => !pipeline.stepIds.contains dependency) =
      some unknown) :
    pipeline.linkEach position dependencies links =
      .error (.unknownDependency (pipeline.idAt position) unknown) := by
  induction dependencies generalizing links with
  | nil => cases found
  | cons dependency rest induction =>
      rw [linkEach]
      by_cases declared : dependency ∈ pipeline.stepIds
      · obtain ⟨other, isAt, _⟩ := pipeline.position_of_declared declared
        rw [isAt]
        rw [List.find?_cons_of_neg (by simpa using declared)] at found
        exact induction _ found
      · rw [pipeline.position_of_undeclared declared]
        rw [List.find?_cons_of_pos (by simpa using declared)] at found
        cases found
        rfl

theorem link_each_ok {pipeline : Pipeline} {position : Fin pipeline.steps.length}
    {dependencies : List String} (links : Links pipeline.steps.length)
    (known : ∀ dependency ∈ dependencies, dependency ∈ pipeline.stepIds) :
    ∃ linked, pipeline.linkEach position dependencies links = .ok linked := by
  induction dependencies generalizing links with
  | nil => exact ⟨links, rfl⟩
  | cons dependency rest induction =>
      obtain ⟨other, found, _⟩ :=
        pipeline.position_of_declared (known dependency List.mem_cons_self)
      rw [linkEach, found]
      exact induction _ fun entry member => known entry (List.mem_cons_of_mem _ member)

theorem link_steps_unknown {pipeline : Pipeline} {positions : List (Fin pipeline.steps.length)}
    {id unknown : String} (links : Links pipeline.steps.length)
    (found : Graph.firstUnknown pipeline.stepIds (positions.map pipeline.stepAt) =
      some (id, unknown)) :
    pipeline.linkSteps positions links = .error (.unknownDependency id unknown) := by
  induction positions generalizing links with
  | nil => cases found
  | cons position rest induction =>
      rw [Graph.firstUnknown, List.map_cons, List.findSome?_cons] at found
      rw [linkSteps]
      cases own : (pipeline.stepAt position).dependsOn.find? fun dependency =>
          !pipeline.stepIds.contains dependency with
      | some dependency =>
          rw [own] at found
          cases found
          rw [pipeline.link_each_unknown links own]
          rfl
      | none =>
          rw [own] at found
          have known : ∀ dependency ∈ (pipeline.stepAt position).dependsOn,
              dependency ∈ pipeline.stepIds := by
            simpa using List.find?_eq_none.1 own
          obtain ⟨linked, isLinked⟩ := link_each_ok links known
          rw [isLinked]
          exact induction linked found

theorem link_unknown {pipeline : Pipeline} {id unknown : String}
    (found : Graph.firstUnknown pipeline.stepIds pipeline.steps = some (id, unknown)) :
    pipeline.link = .error (.unknownDependency id unknown) := by
  rw [← pipeline.steps_by_position] at found
  exact link_steps_unknown _ found

end Pipeline

end PipelineWaves
