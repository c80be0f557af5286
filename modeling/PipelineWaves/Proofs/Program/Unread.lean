import PipelineWaves.Proofs.Layering
import PipelineWaves.Proofs.Program.Quotable

/-!
# What no program reads

A program has no trace of the description of its pipeline, of the paths of a restored cache
and of common variables that every step lays over. Pipelines that differ there only compile
to the same graph and the same conditions and have the same program, or fail alike.
-/

set_option autoImplicit false

namespace PipelineWaves

/-- The same action, up to the paths of a restored cache. -/
inductive Action.SameButRestoredPaths : Action → Action → Prop where
  | same (action : Action) : SameButRestoredPaths action action
  | restored (key paths otherPaths : String) (directory : Option String) :
      SameButRestoredPaths (.cache .restore key paths directory)
        (.cache .restore key otherPaths directory)

structure Step.SameButRestoredPaths (step other : Step) : Prop where
  id : other.id = step.id
  name : other.name = step.name
  action : step.action.SameButRestoredPaths other.action
  dependsOn : other.dependsOn = step.dependsOn
  environment : other.environment = step.environment
  condition : other.condition = step.condition

/-- The same pipeline, up to its description, the paths of restored caches and common variables
that every step lays over. -/
structure Pipeline.SameForPrograms (pipeline other : Pipeline) : Prop where
  name : other.name = pipeline.name
  steps : List.Forall₂ Step.SameButRestoredPaths pipeline.steps other.steps
  overridden : ∀ key, other.environment.get? key ≠ pipeline.environment.get? key →
    ∀ step ∈ pipeline.steps, step.environment.contains key = true

theorem Action.SameButRestoredPaths.written {action other : Action}
    (same : action.SameButRestoredPaths other) :
    ProgramAction.of other = ProgramAction.of action := by
  cases same <;> rfl

/-- What compiling and writing read of a step in its pipeline is the same. -/
structure StepsAlike (pipeline other : Pipeline) (step otherStep : Step) : Prop where
  id : otherStep.id = step.id
  dependsOn : otherStep.dependsOn = step.dependsOn
  condition : otherStep.condition = step.condition
  environment : other.environmentOf otherStep = pipeline.environmentOf step
  written : ProgramStep.of other otherStep = ProgramStep.of pipeline step

namespace Pipeline.SameForPrograms

variable {pipeline other : Pipeline}

theorem environment_of (same : pipeline.SameForPrograms other) {step : Step}
    (member : step ∈ pipeline.steps) : other.environmentOf step = pipeline.environmentOf step := by
  apply Dictionary.ext
  intro key
  rw [environmentOf, environmentOf, Dictionary.get?_overlay, Dictionary.get?_overlay]
  by_cases kept : other.environment.get? key = pipeline.environment.get? key
  · rw [kept]
  · have own := same.overridden key kept step member
    rw [Dictionary.contains] at own
    obtain ⟨value, found⟩ := Option.isSome_iff_exists.1 own
    rw [found, Option.some_or, Option.some_or]

theorem alike (same : pipeline.SameForPrograms other) :
    List.Forall₂ (StepsAlike pipeline other) pipeline.steps other.steps := by
  have environments : ∀ step ∈ pipeline.steps,
      other.environmentOf step = pipeline.environmentOf step :=
    fun step member => same.environment_of member
  refine ((List.forall₂_and_left _ _).2 ⟨environments, same.steps⟩).imp ?_
  rintro step otherStep ⟨environment, alike⟩
  have otherEnvironment : other.environmentOf otherStep = pipeline.environmentOf step := by
    rw [← environment, environmentOf, environmentOf, alike.environment]
  refine ⟨alike.id, alike.dependsOn, alike.condition, otherEnvironment, ?_⟩
  rw [ProgramStep.of, ProgramStep.of, otherEnvironment, alike.id, alike.name, alike.action.written]

end Pipeline.SameForPrograms

theorem map_eq_of_alike {Item Other Value : Type} {Alike : Item → Other → Prop}
    {items : List Item} {others : List Other} {value : Item → Value} {otherValue : Other → Value}
    (alike : List.Forall₂ Alike items others)
    (same : ∀ item other, Alike item other → otherValue other = value item) :
    others.map otherValue = items.map value := by
  induction alike with
  | nil => rfl
  | cons first rest induction => rw [List.map_cons, List.map_cons, same _ _ first, induction]

variable {pipeline other : Pipeline}

theorem step_ids_alike
    (alike : List.Forall₂ (StepsAlike pipeline other) pipeline.steps other.steps) :
    other.stepIds = pipeline.stepIds :=
  map_eq_of_alike alike fun _ _ same => same.id

theorem first_unknown_alike (ids : List String) {steps others : List Step}
    (alike : List.Forall₂ (StepsAlike pipeline other) steps others) :
    Graph.firstUnknown ids others = Graph.firstUnknown ids steps := by
  induction alike with
  | nil => rfl
  | cons first rest induction =>
      simp only [Graph.firstUnknown, List.findSome?_cons, first.id, first.dependsOn] at induction ⊢
      rw [induction]

theorem build_alike (alike : List.Forall₂ (StepsAlike pipeline other) pipeline.steps other.steps) :
    Graph.build other = Graph.build pipeline := by
  have nodes : other.steps.map Graph.nodeOf = pipeline.steps.map Graph.nodeOf :=
    map_eq_of_alike alike fun step otherStep same => by
      rw [Graph.nodeOf, Graph.nodeOf, same.id, same.dependsOn]
  rw [Graph.build, Graph.build, step_ids_alike alike, first_unknown_alike _ alike, nodes]

namespace CompiledPipeline

theorem compile_condition_alike {step otherStep : Step}
    (alike : StepsAlike pipeline other step otherStep) (graph : Graph) (source : String) :
    compileCondition other graph otherStep source =
      compileCondition pipeline graph step source := by
  rw [compileCondition, compileCondition, alike.environment, alike.id]

theorem compile_conditions_alike (graph : Graph) {steps others : List Step}
    (alike : List.Forall₂ (StepsAlike pipeline other) steps others) :
    compileConditions other graph others = compileConditions pipeline graph steps := by
  induction alike with
  | nil => rfl
  | cons first rest induction =>
      simp only [compileConditions, first.condition, compile_condition_alike first, first.id,
        induction]

theorem compile_alike
    (alike : List.Forall₂ (StepsAlike pipeline other) pipeline.steps other.steps) :
    compile other = (compile pipeline).map fun compiled => { compiled with pipeline := other } := by
  rw [compile, compile, build_alike alike]
  cases Graph.build pipeline with
  | error failure => rfl
  | ok graph =>
      simp only [compile_conditions_alike graph alike]
      cases compileConditions pipeline graph pipeline.steps <;> rfl

end CompiledPipeline

theorem step_alike {steps others : List Step}
    (alike : List.Forall₂ (StepsAlike pipeline other) steps others) (id : String) :
    Option.Rel (StepsAlike pipeline other) (steps.find? fun step => step.id = id)
      (others.find? fun step => step.id = id) := by
  induction alike with
  | nil => exact .none
  | cons first rest induction =>
      rw [List.find?_cons, List.find?_cons, first.id]
      split
      · exact .some first
      · exact induction

namespace CompiledPipeline

theorem plan_steps_alike {compiled otherCompiled : CompiledPipeline}
    (graph : otherCompiled.graph = compiled.graph)
    (alike : List.Forall₂ (StepsAlike compiled.pipeline otherCompiled.pipeline)
      compiled.pipeline.steps otherCompiled.pipeline.steps) :
    List.Forall₂ (StepsAlike compiled.pipeline otherCompiled.pipeline) compiled.planSteps
      otherCompiled.planSteps := by
  rw [planSteps, planSteps, graph]
  apply List.rel_filterMap (R := Eq)
  · rintro id _ rfl
    exact step_alike alike id
  · exact List.forall₂_refl _

end CompiledPipeline

namespace ProgramTables

/-- The conditions depend on the ids of the steps and not on the steps. -/
theorem conditions_of_ids (compiled : CompiledPipeline) (positionOf : String → Option Nat)
    (steps : List Step) :
    steps.zipIdx.filterMap (conditionAt compiled positionOf) =
      (steps.map Step.id).zipIdx.filterMap fun entry =>
        (compiled.condition? entry.1).map fun condition =>
          (entry.2, ProgramExpression.of positionOf condition) := by
  rw [List.zipIdx_map, List.filterMap_map]
  rfl

theorem index_of_ids (steps : List Step) :
    indexOf steps = .ofList (steps.map Step.id).zipIdx := by
  rw [indexOf, List.zipIdx_map]
  rfl

theorem of_alike {compiled otherCompiled : CompiledPipeline}
    (name : otherCompiled.pipeline.name = compiled.pipeline.name)
    (graph : otherCompiled.graph = compiled.graph)
    (conditions : otherCompiled.conditions = compiled.conditions)
    (alike : List.Forall₂ (StepsAlike compiled.pipeline otherCompiled.pipeline)
      compiled.pipeline.steps otherCompiled.pipeline.steps) : of otherCompiled = of compiled := by
  have planned := CompiledPipeline.plan_steps_alike graph alike
  have entries := map_eq_of_alike planned fun _ _ same => same.written
  have ids := map_eq_of_alike planned fun _ _ same => same.id
  have condition (id : String) : otherCompiled.condition? id = compiled.condition? id := by
    rw [CompiledPipeline.condition?, CompiledPipeline.condition?, conditions]
  have index : indexOf otherCompiled.planSteps = indexOf compiled.planSteps := by
    rw [index_of_ids, index_of_ids, ids]
  have rows := map_eq_of_alike planned fun left right (same : StepsAlike _ _ left right) =>
    congrArg (fun id => (positionsIn (indexOf compiled.planSteps)
      (compiled.graph.transitiveDependents id)).mergeSort) same.id
  simp only [of, conditions_of_ids, name, graph, entries, ids, condition, index, rows]

end ProgramTables

namespace CompiledPipeline

theorem generate_alike {compiled : CompiledPipeline} (compiles : compile pipeline = .ok compiled)
    (same : pipeline.SameForPrograms other) :
    ∃ otherCompiled, compile other = .ok otherCompiled ∧
      otherCompiled.generate = compiled.generate := by
  refine ⟨{ compiled with pipeline := other }, by rw [compile_alike same.alike, compiles]; rfl, ?_⟩
  have own := (compile_parts compiles).1
  subst own
  have tables : ProgramTables.of { compiled with pipeline := other } = ProgramTables.of compiled :=
    ProgramTables.of_alike same.name rfl rfl same.alike
  rw [generate, generate, tables]

end CompiledPipeline

/-- A compiled pipeline has a program exactly when none of the texts that a program quotes has a
NUL character. Otherwise the error names a field with such a text, so that no placeholder is ever
left unfilled. Pipelines that differ in what no program reads have the same result. -/
theorem generation_fails_only_on_nul {compiled : CompiledPipeline}
    (compiles : CompiledPipeline.compile pipeline = .ok compiled) :
    ((∃ program, compiled.generate = .ok program) ↔
      ∀ field ∈ compiled.quotedFields, ¬field.HasNul) ∧
    (∀ error, compiled.generate = .error error →
      ∃ field ∈ compiled.quotedFields, field.HasNul ∧ error = .notQuotable field.context) ∧
    ∀ other, pipeline.SameForPrograms other →
      ∃ otherCompiled, CompiledPipeline.compile other = .ok otherCompiled ∧
        otherCompiled.generate = compiled.generate := by
  have quotes := CompiledPipeline.generate_quotes compiles
  exact ⟨quotes.ok_iff, quotes.named,
    fun other same => CompiledPipeline.generate_alike compiles same⟩

/-- A step that lays over the only common variable and restores paths if the variable is not the
text of a single NUL character. -/
def restoringPipeline (description paths common : String) : Pipeline :=
  { name := "restoring"
    description
    steps := [{
      id := "deps"
      name := "Dependencies"
      action := .cache .restore "key" paths none
      dependsOn := []
      environment := Dictionary.ofList [("MODE", "fast")]
      condition := some "$MODE != '\x00' and 'bare\x00'" }]
    environment := Dictionary.ofList [("MODE", common)] }

theorem restoring_pipelines_same (description paths common : String) :
    (restoringPipeline "" "out" "slow").SameForPrograms
      (restoringPipeline description paths common) where
  name := rfl
  steps := .cons ⟨rfl, rfl, .restored "key" "out" paths none, rfl, rfl, rfl⟩ .nil
  overridden key changed step member := by
    obtain rfl : key = "MODE" := by
      by_contra other
      exact changed (by simp [restoringPipeline, Dictionary.get?_ofList, lookup_cons_eq_if, other])
    obtain rfl := List.mem_singleton.1 member
    decide

/-- The compared literal has no text in a program. That the bare one has none either is as little
seen as NUL characters in a description, in restored paths and in a common variable. -/
theorem restoring_pipeline_not_quotable :
    ∃ compiled otherCompiled,
      CompiledPipeline.compile (restoringPipeline "" "out" "slow") = .ok compiled ∧
      CompiledPipeline.compile (restoringPipeline "\x00" "\x00" "\x00") = .ok otherCompiled ∧
      compiled.generate = .error (.notQuotable "steps.deps.condition") ∧
      otherCompiled.generate = .error (.notQuotable "steps.deps.condition") := by
  have evaluated : (CompiledPipeline.compile (restoringPipeline "" "out" "slow")).toOption.map
      (fun compiled => compiled.quotedFields.filter fun field => field.HasNul) =
        some [⟨"steps.deps.condition", "\x00"⟩] := by
    decide +kernel
  obtain ⟨compiled, found, fields⟩ := Option.map_eq_some_iff.1 evaluated
  have compiles := except_ok_of_to_option found
  obtain ⟨writable, named, kept⟩ := generation_fails_only_on_nul compiles
  have quotes : Quotes compiled.generate compiled.quotedFields :=
    ⟨fun program generated => writable.1 ⟨program, generated⟩, named⟩
  have failing := quotes.error_of_only fields
  obtain ⟨otherCompiled, otherCompiles, same⟩ :=
    kept _ (restoring_pipelines_same "\x00" "\x00" "\x00")
  exact ⟨compiled, otherCompiled, compiles, otherCompiles, failing, same.trans failing⟩

end PipelineWaves
