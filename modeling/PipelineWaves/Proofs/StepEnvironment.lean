import PipelineWaves.CommandLine.Reply
import PipelineWaves.Proofs.Layering
import PipelineWaves.Proofs.Program.Decoding
import PipelineWaves.Proofs.Recipe.Launch
import PipelineWaves.Proofs.Run.Cascade
import PipelineWaves.Proofs.Run.Lookup

/-!
# The environment of a step

A step has one environment, put together from three layers: the variables of its
definition, those given on the command line, and its own. The check of its condition, the
evaluation of the condition in a run, the processes that carry the step out and the program
that is generated all see this one environment.
-/

set_option autoImplicit false

namespace PipelineWaves

namespace Definition

/-- The topmost layer that has a variable decides: the step, then the last text given for the
variable, then the definition. -/
def valueFor (definition : Definition) (overrides : List (String × String))
    (step : StepDefinition) (key : String) : Option String :=
  ((step.environment.get? key).map variableText).or
    ((overrides.reverse.lookup key).or ((definition.environment.get? key).map variableText))

/-- The pipeline of a definition under variables given on the command line. -/
def pipelineUnder (definition : Definition) (overrides : List (String × String)) : Pipeline :=
  definition.toPipeline.withOverrides (Dictionary.ofList overrides)

theorem environment_of_value (definition : Definition) (overrides : List (String × String))
    (step : StepDefinition) (key : String) :
    ((definition.pipelineUnder overrides).environmentOf (stepOf step)).get? key =
      definition.valueFor overrides step key := by
  rw [Pipeline.environmentOf, Dictionary.get?_overlay, pipelineUnder, Pipeline.withOverrides,
    Dictionary.get?_overlay, Dictionary.get?_ofList, toPipeline, stepOf]
  simp only [Dictionary.get?_mapValues]
  rfl

end Definition

namespace CompiledPipeline

variable {State : Type}

def IsOwnDispatch (compiled : CompiledPipeline) (dispatch : Dispatch) : Prop :=
  dispatch.step ∈ compiled.pipeline.steps ∧
    dispatch.environment = compiled.pipeline.environmentOf dispatch.step

theorem resolve_wave_own (compiled : CompiledPipeline) (progress : RunProgress)
    {steps : List Step} (declared : ∀ step ∈ steps, step ∈ compiled.pipeline.steps) :
    ∀ dispatch ∈ (compiled.resolveWave progress steps).2, compiled.IsOwnDispatch dispatch := by
  induction steps generalizing progress with
  | nil => exact fun dispatch member => nomatch member
  | cons step rest induction =>
      obtain ⟨first, others⟩ := List.forall_mem_cons.1 declared
      rw [resolveWave]
      split
      · exact induction _ others
      · exact induction _ others
      · exact List.forall_mem_cons.2 ⟨⟨first, rfl⟩, induction _ others⟩

theorem run_waves_own (compiled : CompiledPipeline) (surroundings : Surroundings State)
    (index : Nat) (waves : List (List GraphNode)) (progress : RunProgress) (state : State)
    {log : List Dispatch} (own : ∀ dispatch ∈ log, compiled.IsOwnDispatch dispatch) :
    ∀ dispatch ∈ (compiled.runWaves surroundings.logged index waves progress (state, log)).2.1.2,
      compiled.IsOwnDispatch dispatch := by
  induction waves generalizing index progress state log with
  | nil => exact own
  | cons wave rest induction =>
      rw [runWaves]
      split
      · exact own
      · refine induction _ _ _ (List.forall_mem_append.2 ⟨own, ?_⟩)
        exact compiled.resolve_wave_own _ (compiled.wave_steps_declared wave)

theorem dispatched_own (compiled : CompiledPipeline) (surroundings : Surroundings State)
    (identifier : RunIdentifier) (state : State) :
    ∀ dispatch ∈ compiled.dispatched surroundings identifier state,
      compiled.IsOwnDispatch dispatch :=
  compiled.run_waves_own surroundings 0 _ _ state fun _ member => nomatch member

theorem load_ok_iff {files : Files} {path : FilePath} {overrides : List (String × String)}
    {definition : Definition} {compiled : CompiledPipeline}
    (loads : Definition.load files path = .ok definition) :
    load files path overrides = .ok compiled ↔
      compile (definition.pipelineUnder overrides) = .ok compiled := by
  simp only [load, loads, Definition.pipelineUnder]
  cases compile (definition.toPipeline.withOverrides (Dictionary.ofList overrides)) with
  | error error => exact ⟨nofun, nofun⟩
  | ok other => simp only [Except.mapError, Except.ok.injEq]

end CompiledPipeline

/-- Everything that is done for a step of a compiled pipeline sees the environment. -/
structure SeesEnvironment (compiled : CompiledPipeline) (step : Step) (environment : Environment) :
    Prop where
  evaluated : ∀ outcomes, compiled.conditionHolds outcomes step =
    ((compiled.condition? step.id).map (·.evaluate environment outcomes)).getD true
  dispatched : ∀ (State : Type) (surroundings : Surroundings State) (identifier : RunIdentifier)
    (state : State), ∀ dispatch ∈ compiled.dispatched surroundings identifier state,
      dispatch.step.id = step.id → dispatch = ⟨step, environment⟩
  started : ∀ (workshop : Workshop) (now : Instant) (world : World),
    StartedIn environment world (workshop.carryOut now ⟨step, environment⟩ world).2
  emitted : ∀ program, compiled.generate = .ok program →
    ∃ tables, program.main?.bind EmittedTables.read = some tables ∧
      (∃ entry ∈ tables.steps, entry.id = step.id) ∧
        ∀ entry ∈ tables.steps, entry.id = step.id → entry.environment = environment.entries

theorem sees_own_environment {pipeline : Pipeline} {compiled : CompiledPipeline}
    (compiles : CompiledPipeline.compile pipeline = .ok compiled) {step : Step}
    (member : step ∈ pipeline.steps) :
    SeesEnvironment compiled step (pipeline.environmentOf step) := by
  have plans := CompiledPipeline.compile_plans compiles
  have same := (CompiledPipeline.compile_parts compiles).1
  subst same
  have sole {other : Step} (present : other ∈ compiled.pipeline.steps)
      (sameId : other.id = step.id) : other = step :=
    Pipeline.step_eq_of_id_eq plans.distinct present member sameId
  constructor
  · intro outcomes
    rw [CompiledPipeline.conditionHolds]
    cases compiled.condition? step.id <;> rfl
  · intro State surroundings identifier state dispatch dispatched sameId
    obtain ⟨declared, own⟩ := compiled.dispatched_own surroundings identifier state _ dispatched
    rw [← sole declared sameId, ← own]
  · intro workshop now world
    exact workshop.perform_started_in step.action _ world
  · intro program generated
    obtain ⟨tables, _, read, _, entries, _⟩ := CompiledPipeline.generated_tables compiles generated
    refine ⟨tables, read, ⟨_, entries.mem_iff.2 (List.mem_map_of_mem member), rfl⟩, ?_⟩
    intro entry listed sameId
    obtain ⟨other, present, rfl⟩ := List.mem_map.1 (entries.mem_iff.1 listed)
    obtain rfl := sole present sameId
    rfl

/-- Each step of a definition that loads has one environment, whose texts come from the
topmost layer that has the variable. The check of its condition and whatever is done for it
once the pipeline is compiled see that environment. Layers may be put together in any
grouping. -/
theorem one_environment_everywhere {files : Files} {path : FilePath} {definition : Definition}
    (loads : Definition.load files path = .ok definition) (overrides : List (String × String)) :
    (∀ step ∈ definition.steps, ∃ environment : Environment,
      (∀ key, environment.get? key = definition.valueFor overrides step key) ∧
      environment.entries.Pairwise (fun left right => left.1 < right.1) ∧
      (∀ (graph : Graph) (source : String) (condition : Condition),
        Condition.parse source = .ok condition →
          CompiledPipeline.compileCondition (definition.pipelineUnder overrides) graph
              (Definition.stepOf step) source =
            match condition.firstUndefined? environment graph.contains with
            | some reference => .error (.undefined step.id reference)
            | none => .ok condition) ∧
      ∀ compiled, CompiledPipeline.load files path overrides = .ok compiled →
        SeesEnvironment compiled (Definition.stepOf step) environment) ∧
    ∀ base middle top : Environment,
      (base.overlay middle).overlay top = base.overlay (middle.overlay top) := by
  refine ⟨fun step member => ?_, Dictionary.overlay_assoc⟩
  refine ⟨(definition.pipelineUnder overrides).environmentOf (Definition.stepOf step),
    definition.environment_of_value overrides step, Dictionary.ascending _, ?_, ?_⟩
  · intro graph source condition parsed
    simp only [CompiledPipeline.compileCondition, parsed]
    rfl
  · intro compiled compiles
    exact sees_own_environment ((CompiledPipeline.load_ok_iff loads).1 compiles)
      (List.mem_map_of_mem member)

def layeredText : String :=
  "\x7b\"name\":\"r\",\"env\":\x7b\"A\":\"x\",\"N\":4\x7d,\"steps\":[\x7b\"id\":\"b\",
    \"action\":\x7b\"type\":\"shell\",\"command\":\"make\"\x7d,
    \"env\":\x7b\"A\":\"y\"\x7d,\"if\":\"$A == $T\"\x7d]\x7d"

def layeredFiles : Files := ⟨.directory [("p", .ofText layeredText false)], []⟩

def layeredOverrides : List (String × String) := [("T", "w"), ("A", "z"), ("T", "y")]

def layeredValues (definition : Definition) : List (List (Option String)) :=
  definition.steps.map fun step =>
    ["A", "N", "T", "U"].map (definition.valueFor layeredOverrides step)

theorem layered_environment :
    ∃ definition compiled program, Definition.load layeredFiles ⟨"p"⟩ = .ok definition ∧
      CompiledPipeline.load layeredFiles ⟨"p"⟩ layeredOverrides = .ok compiled ∧
      compiled.generate = .ok program ∧
      ∃ step ∈ definition.steps, ∃ environment,
        SeesEnvironment compiled (Definition.stepOf step) environment ∧
          ["A", "N", "T", "U"].map environment.get? = [some "y", some "4", some "y", none] := by
  have evaluated : ((Definition.load layeredFiles ⟨"p"⟩).toOption.bind fun definition =>
      (CompiledPipeline.compile (definition.pipelineUnder layeredOverrides)).toOption.map
        fun compiled => (layeredValues definition, (ProgramTables.of compiled).values.isOk)) =
      some ([[some "y", some "4", some "y", none]], true) := by
    decide +kernel
  obtain ⟨definition, found, rest⟩ := Option.bind_eq_some_iff.1 evaluated
  obtain ⟨compiled, alsoFound, same⟩ := Option.map_eq_some_iff.1 rest
  obtain ⟨valuesSame, canWrite⟩ := Prod.mk.inj same
  have loads := except_ok_of_to_option found
  have compiles := (CompiledPipeline.load_ok_iff loads).2 (except_ok_of_to_option alsoFound)
  obtain ⟨_, written⟩ := ProgramTables.values_of_is_ok canWrite
  obtain ⟨step, others, steps, stepValues, _⟩ := List.map_eq_cons_iff.1 valuesSame
  have member : step ∈ definition.steps := steps ▸ List.mem_cons_self
  obtain ⟨environment, values, _, _, sees⟩ :=
    (one_environment_everywhere loads layeredOverrides).1 step member
  refine ⟨definition, compiled, _, loads, compiles, ProgramTables.program_of_values written, step,
    member, environment, sees compiled compiles, ?_⟩
  rw [← stepValues]
  exact List.map_congr_left fun key _ => values key

end PipelineWaves
