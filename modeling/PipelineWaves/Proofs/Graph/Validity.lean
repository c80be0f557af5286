import PipelineWaves.Proofs.Graph.Cycle

/-!
# Valid pipelines

A graph is built for a pipeline exactly when its ids are distinct, its
dependencies declared and its steps free of cycles. Otherwise the error names the
first obstacle of the first kind that there is: the first step whose id stood
before, the first unknown dependency, or a cycle of the pipeline.
-/

set_option autoImplicit false

namespace PipelineWaves

namespace Pipeline

/-- `id` belongs to the first step, in order of declaration, whose id stood before. -/
def FirstRepeats (pipeline : Pipeline) (id : String) : Prop :=
  ∃ before step after, pipeline.steps = before ++ step :: after ∧ step.id = id ∧
    (before.map Step.id).Nodup ∧ id ∈ before.map Step.id

/-- `dependency` is the first entry that names no step, and `id` the step that lists it. -/
def FirstUnknown (pipeline : Pipeline) (id dependency : String) : Prop :=
  ∃ before step after, pipeline.steps = before ++ step :: after ∧ step.id = id ∧
    (∀ earlier ∈ before, ∀ entry ∈ earlier.dependsOn, entry ∈ pipeline.stepIds) ∧
    ∃ known rest, step.dependsOn = known ++ dependency :: rest ∧
      (∀ entry ∈ known, entry ∈ pipeline.stepIds) ∧ dependency ∉ pipeline.stepIds

end Pipeline

namespace Graph

theorem first_repeated_split {seen ids : List String} {id : String}
    (repeated : firstRepeated seen ids = some id) :
    ∃ before after, ids = before ++ id :: after ∧ before.Nodup ∧
      (∀ earlier ∈ before, earlier ∉ seen) ∧ (id ∈ before ∨ id ∈ seen) := by
  induction ids generalizing seen with
  | nil => simp [firstRepeated] at repeated
  | cons first rest induction =>
      rw [firstRepeated] at repeated
      by_cases known : first ∈ seen
      · rw [if_pos (by simpa using known)] at repeated
        cases repeated
        exact ⟨[], rest, rfl, List.nodup_nil, by simp, Or.inr known⟩
      · rw [if_neg (by simpa using known)] at repeated
        obtain ⟨before, after, split, distinct, fresh, earlier⟩ := induction repeated
        have notInside : first ∉ before := by
          intro inside
          exact fresh first inside List.mem_cons_self
        refine ⟨first :: before, after, by rw [split]; rfl,
          List.nodup_cons.2 ⟨notInside, distinct⟩, ?_, ?_⟩
        · intro id member
          rcases List.mem_cons.1 member with same | later
          · exact same ▸ known
          · exact fun old => fresh id later (List.mem_cons_of_mem first old)
        · rcases earlier with inside | old
          · exact Or.inl (List.mem_cons_of_mem first inside)
          · rcases List.mem_cons.1 old with same | old
            · exact Or.inl (same ▸ List.mem_cons_self)
            · exact Or.inr old

theorem first_repeats_of_repeated {pipeline : Pipeline} {id : String}
    (repeated : firstRepeated [] pipeline.stepIds = some id) : pipeline.FirstRepeats id := by
  obtain ⟨before, after, split, distinct, _, inside⟩ := first_repeated_split repeated
  obtain ⟨first, rest, splitSteps, sameBefore, sameRest⟩ := List.map_eq_append_iff.1 split
  obtain ⟨step, last, restEq, sameId, _⟩ := List.map_eq_cons_iff.1 sameRest
  subst sameBefore restEq
  exact ⟨first, step, last, splitSteps, sameId, distinct, inside.resolve_right (by simp)⟩

theorem first_unknown_of_unknown {pipeline : Pipeline} {id dependency : String}
    (unknown : firstUnknown pipeline.stepIds pipeline.steps = some (id, dependency)) :
    pipeline.FirstUnknown id dependency := by
  obtain ⟨before, step, after, split, found, earlierKnown⟩ :=
    List.findSome?_eq_some_iff.1 unknown
  obtain ⟨entry, foundEntry, pair⟩ := Option.map_eq_some_iff.1 found
  obtain ⟨sameId, sameEntry⟩ := Prod.mk.inj pair
  subst sameEntry
  obtain ⟨isUnknown, known, rest, splitEntries, allKnown⟩ :=
    List.find?_eq_some_iff_append.1 foundEntry
  refine ⟨before, step, after, split, sameId, ?_, known, rest, splitEntries, ?_, ?_⟩
  · intro earlier member listed listedMember
    have none := earlierKnown earlier member
    rw [Option.map_eq_none_iff, List.find?_eq_none] at none
    simpa using none listed listedMember
  · intro listed listedMember
    simpa using allKnown listed listedMember
  · simpa using isUnknown

theorem build_ok_of_acyclic {pipeline : Pipeline} (distinct : pipeline.HasDistinctIds)
    (known : pipeline.KnowsDependencies) (acyclic : pipeline.IsAcyclic) :
    ∃ graph, build pipeline = .ok graph := by
  rw [build_of_known distinct known]
  split
  · exact ⟨_, rfl⟩
  · rename_i someStuck
    have cycle := cycle_among_is_cycle (stuck_leads_on distinct known) someStuck
    exact absurd acyclic (Pipeline.not_acyclic_of_cycle cycle)

theorem build_error_of_cycle {pipeline : Pipeline} (distinct : pipeline.HasDistinctIds)
    (known : pipeline.KnowsDependencies) (cyclic : ¬pipeline.IsAcyclic) :
    ∃ cycle, build pipeline = .error (.cyclicDependency cycle) ∧ pipeline.IsCycle cycle := by
  have someStuck : stuckNodes pipeline ≠ [] := by
    intro noneStuck
    have built := build_of_known distinct known
    rw [if_pos noneStuck] at built
    exact cyclic (build_plans built).acyclic
  refine ⟨_, ?_, cycle_among_is_cycle (stuck_leads_on distinct known) someStuck⟩
  rw [build_of_known distinct known, if_neg someStuck]

/-- Building succeeds exactly for valid pipelines and else names the first obstacle. -/
theorem build_exact (pipeline : Pipeline) :
    ((∃ graph, build pipeline = .ok graph) ↔
      pipeline.HasDistinctIds ∧ pipeline.KnowsDependencies ∧ pipeline.IsAcyclic) ∧
    (¬pipeline.HasDistinctIds →
      ∃ id, build pipeline = .error (.duplicateStep id) ∧ pipeline.FirstRepeats id) ∧
    (pipeline.HasDistinctIds → ¬pipeline.KnowsDependencies →
      ∃ id dependency, build pipeline = .error (.unknownDependency id dependency) ∧
        pipeline.FirstUnknown id dependency) ∧
    (pipeline.HasDistinctIds → pipeline.KnowsDependencies → ¬pipeline.IsAcyclic →
      ∃ cycle, build pipeline = .error (.cyclicDependency cycle) ∧ pipeline.IsCycle cycle) := by
  refine ⟨⟨?_, ?_⟩, ?_, ?_, build_error_of_cycle⟩
  · rintro ⟨graph, built⟩
    have plans := build_plans built
    exact ⟨plans.distinct, plans.known, plans.acyclic⟩
  · rintro ⟨distinct, known, acyclic⟩
    exact build_ok_of_acyclic distinct known acyclic
  · intro repeats
    cases repeated : firstRepeated [] pipeline.stepIds with
    | none => exact absurd (first_repeated_none_iff.1 repeated).1 repeats
    | some id => exact ⟨id, build_of_repeated repeated, first_repeats_of_repeated repeated⟩
  · intro distinct unknowns
    cases unknown : firstUnknown pipeline.stepIds pipeline.steps with
    | none => exact absurd (first_unknown_none_iff.1 unknown) unknowns
    | some pair =>
        exact ⟨pair.1, pair.2, build_of_unknown distinct unknown,
          first_unknown_of_unknown unknown⟩

end Graph

def loopedPipeline (id dependency : String) : Pipeline :=
  { name := "looped"
    description := ""
    steps :=
      [⟨"prepare", "Prepare", .shell "make prepare" none, [], {}, none⟩,
        ⟨"build", "Build", .shell "make build" none, ["prepare", "test"], {}, none⟩,
        ⟨"test", "Test", .shell "make test" none, ["build"], {}, none⟩,
        ⟨id, "Last", .shell "make last" none, [dependency], {}, none⟩]
    environment := {} }

theorem looped_pipeline_refused :
    (∃ id, Graph.build (loopedPipeline "test" "lint") = .error (.duplicateStep id) ∧
      (loopedPipeline "test" "lint").FirstRepeats id) ∧
    (∃ id dependency,
      Graph.build (loopedPipeline "report" "lint") = .error (.unknownDependency id dependency) ∧
        (loopedPipeline "report" "lint").FirstUnknown id dependency) ∧
    ∃ cycle, Graph.build (loopedPipeline "report" "test") = .error (.cyclicDependency cycle) ∧
      (loopedPipeline "report" "test").IsCycle cycle := by
  have distinct (dependency : String) : (loopedPipeline "report" dependency).HasDistinctIds := by
    simp [loopedPipeline, Pipeline.HasDistinctIds, Pipeline.stepIds]
  refine ⟨(Graph.build_exact _).2.1 ?_, (Graph.build_exact _).2.2.1 (distinct "lint") ?_,
    (Graph.build_exact _).2.2.2 (distinct "test") ?_ ?_⟩
  · simp [loopedPipeline, Pipeline.HasDistinctIds, Pipeline.stepIds]
  · simp [loopedPipeline, Pipeline.KnowsDependencies, Pipeline.stepIds]
  · simp [loopedPipeline, Pipeline.KnowsDependencies, Pipeline.stepIds]
  · have loop : (loopedPipeline "report" "test").IsCycle ["build", "test", "build"] := by
      refine ⟨by decide, rfl, by simp, ?_⟩
      simp [loopedPipeline, Pipeline.DependsOn]
    exact Pipeline.not_acyclic_of_cycle loop

end PipelineWaves
