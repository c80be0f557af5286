import PipelineWaves.Proofs.Condition.Mention
import PipelineWaves.Proofs.Layering
import PipelineWaves.Proofs.Rearrangement
import PipelineWaves.Proofs.Run.Lookup

/-!
# Validation

Which pipelines compile, and which fault is reported of the others. A graph fault comes
first; then the conditions are checked in order of declaration, and of the first condition
that offends, its text is read before its names are looked at from left to right. What
passes is exactly what a run needs: no run looks up a variable that is not defined.
-/

set_option autoImplicit false

namespace PipelineWaves

namespace Pipeline

/-- The names that the condition of a step may mention. -/
def Defines (pipeline : Pipeline) (step : Step) : Reference → Prop
  | .variable name => pipeline.environment.contains name ∨ step.environment.contains name
  | .step id => id ∈ pipeline.stepIds

def Admits (pipeline : Pipeline) (step : Step) : Prop :=
  ∀ source, step.condition = some source →
    (∃ condition, Condition.parse source = .ok condition) ∧
      ∀ mention : Mention, mention.IsIn source → pipeline.Defines step mention.reference

structure IsFirstUndefined (pipeline : Pipeline) (step : Step) (source : String)
    (mention : Mention) : Prop where
  mentioned : mention.IsIn source
  undefined : ¬pipeline.Defines step mention.reference
  leftmost : ∀ other : Mention, other.IsIn source → ¬pipeline.Defines step other.reference →
    mention.token.position ≤ other.token.position

/-- What is wrong with the condition text of a step. -/
inductive ConditionOffends (pipeline : Pipeline) (step : Step) (source : String) :
    BuildError → Prop
  | unreadable {failure : ConditionSyntaxError}
      (refused : Condition.parse source = .error failure) :
      ConditionOffends pipeline step source (.condition step.id failure)
  | undefined {condition : Condition} {mention : Mention}
      (readable : Condition.parse source = .ok condition)
      (first : pipeline.IsFirstUndefined step source mention) :
      ConditionOffends pipeline step source (.undefined step.id mention.reference)

/-- The fault that stands first: in the graph, or else in the first condition that offends. -/
inductive FirstFault (pipeline : Pipeline) : BuildError → Prop
  | graph {error : GraphError} (refused : Graph.build pipeline = .error error) :
      FirstFault pipeline (.graph error)
  | condition {graph : Graph} {before after : List Step} {step : Step} {source : String}
      {error : BuildError} (built : Graph.build pipeline = .ok graph)
      (split : pipeline.steps = before ++ step :: after)
      (admitted : ∀ earlier ∈ before, pipeline.Admits earlier)
      (written : step.condition = some source)
      (offends : pipeline.ConditionOffends step source error) : FirstFault pipeline error

end Pipeline

/-- In items that stand in ascending places, the first of a kind is the leftmost one. -/
theorem find_leftmost_iff {Item : Type} (place : Item → Nat) (isWanted : Item → Bool)
    {items : List Item} (ascends : items.Pairwise fun left right => place left < place right)
    {item : Item} :
    items.find? isWanted = some item ↔
      item ∈ items ∧ isWanted item ∧
        ∀ other ∈ items, isWanted other → place item ≤ place other := by
  rw [List.find?_eq_some_iff_append]
  constructor
  · rintro ⟨wanted, before, after, rfl, notBefore⟩
    obtain ⟨_, onward, _⟩ := List.pairwise_append.1 ascends
    refine ⟨by simp, wanted, ?_⟩
    intro other member otherWanted
    rcases List.mem_append.1 member with earlier | fromItem
    · have unwanted := notBefore other earlier
      rw [otherWanted] at unwanted
      cases unwanted
    · rcases List.mem_cons.1 fromItem with rfl | later
      · exact Nat.le_refl _
      · exact Nat.le_of_lt ((List.pairwise_cons.1 onward).1 other later)
  · rintro ⟨member, wanted, leftmost⟩
    obtain ⟨before, after, rfl⟩ := List.append_of_mem member
    refine ⟨wanted, before, after, rfl, ?_⟩
    intro earlier isEarlier
    rw [Bool.not_eq_true', Bool.eq_false_iff]
    intro earlierWanted
    have notLeft := leftmost earlier (List.mem_append_left _ isEarlier) earlierWanted
    have left := (List.pairwise_append.1 ascends).2.2 earlier isEarlier item List.mem_cons_self
    omega

namespace CompiledPipeline

variable {pipeline : Pipeline} {graph : Graph} {step : Step} {source : String}

theorem is_defined_iff (plans : graph.Plans pipeline) (step : Step) (reference : Reference) :
    Condition.isDefined (pipeline.environmentOf step) graph.contains reference = true ↔
      pipeline.Defines step reference := by
  cases reference with
  | «variable» name =>
      rw [Condition.isDefined, Pipeline.environmentOf, Dictionary.contains_overlay, Bool.or_eq_true,
        Pipeline.Defines, Or.comm]
  | step id => exact contains_iff plans id

theorem first_undefined_iff (plans : graph.Plans pipeline) {condition : Condition}
    (parsed : Condition.parse source = .ok condition) (reference : Reference) :
    condition.firstUndefined? (pipeline.environmentOf step) graph.contains = some reference ↔
      ∃ mention, pipeline.IsFirstUndefined step source mention ∧
        mention.reference = reference := by
  obtain ⟨mentions, lists, named⟩ := mentions_of_parse parsed
  rw [Condition.first_undefined_eq_find, ← named, List.find?_map, Option.map_eq_some_iff]
  apply exists_congr
  intro mention
  apply and_congr_left
  intro _
  rw [find_leftmost_iff (fun mention => mention.token.position) _ lists.ascends]
  have undefined_iff (other : Mention) :
      ((fun reference => !Condition.isDefined (pipeline.environmentOf step) graph.contains
        reference) ∘ Mention.reference) other = true ↔ ¬pipeline.Defines step other.reference := by
    rw [← is_defined_iff plans]
    simp
  simp only [undefined_iff, ← lists.is_in_iff]
  constructor
  · rintro ⟨mentioned, undefined, leftmost⟩
    exact ⟨mentioned, undefined, leftmost⟩
  · rintro ⟨mentioned, undefined, leftmost⟩
    exact ⟨mentioned, undefined, leftmost⟩

theorem none_undefined_iff (plans : graph.Plans pipeline) {condition : Condition}
    (parsed : Condition.parse source = .ok condition) :
    condition.firstUndefined? (pipeline.environmentOf step) graph.contains = none ↔
      ∀ mention : Mention, mention.IsIn source → pipeline.Defines step mention.reference := by
  obtain ⟨mentions, lists, named⟩ := mentions_of_parse parsed
  rw [Condition.first_undefined_eq_find, ← named, List.find?_eq_none]
  simp only [lists.is_in_iff, List.forall_mem_map, ← is_defined_iff plans, Bool.not_eq_true',
    Bool.not_eq_false]

theorem compile_condition_ok_iff (plans : graph.Plans pipeline) :
    (∃ condition, compileCondition pipeline graph step source = .ok condition) ↔
      (∃ condition, Condition.parse source = .ok condition) ∧
        ∀ mention : Mention, mention.IsIn source → pipeline.Defines step mention.reference := by
  constructor
  · rintro ⟨condition, compiles⟩
    obtain ⟨parsed, undefined⟩ := compile_condition_ok compiles
    exact ⟨⟨condition, parsed⟩, (none_undefined_iff plans parsed).1 undefined⟩
  · rintro ⟨⟨condition, parsed⟩, defined⟩
    refine ⟨condition, ?_⟩
    simp only [compileCondition, parsed, (none_undefined_iff plans parsed).2 defined]

theorem compile_condition_error_iff (plans : graph.Plans pipeline) {error : BuildError} :
    compileCondition pipeline graph step source = .error error ↔
      pipeline.ConditionOffends step source error := by
  constructor
  · intro refused
    rw [compileCondition] at refused
    cases parsed : Condition.parse source with
    | error failure =>
        simp only [parsed] at refused
        cases refused
        exact .unreadable parsed
    | ok condition =>
        simp only [parsed] at refused
        split at refused
        · rename_i reference found
          cases refused
          obtain ⟨mention, first, rfl⟩ := (first_undefined_iff plans parsed reference).1 found
          exact .undefined parsed first
        · cases refused
  · intro offends
    cases offends with
    | unreadable refused => simp only [compileCondition, refused]
    | undefined readable first =>
        have found := (first_undefined_iff plans readable _).2 ⟨_, first, rfl⟩
        simp only [compileCondition, readable, found]

theorem admits_iff (plans : graph.Plans pipeline) :
    pipeline.Admits step ↔ ∀ source, step.condition = some source →
      ∃ condition, compileCondition pipeline graph step source = .ok condition :=
  forall_congr' fun _ => imp_congr_right fun _ => (compile_condition_ok_iff plans).symm

/-- The first condition that does not compile decides. -/
theorem compile_conditions_error_iff {steps : List Step} {error : BuildError} :
    compileConditions pipeline graph steps = .error error ↔
      ∃ before step after source, steps = before ++ step :: after ∧
        (∀ earlier ∈ before, ∀ source, earlier.condition = some source →
          ∃ condition, compileCondition pipeline graph earlier source = .ok condition) ∧
        step.condition = some source ∧
          compileCondition pipeline graph step source = .error error := by
  constructor
  · intro refused
    induction steps with
    | nil => cases refused
    | cons first rest induction =>
        rw [compileConditions] at refused
        -- The first step is passed when it compiles; the fault is then in the others.
        have behind (passed : ∀ source, first.condition = some source →
            ∃ condition, compileCondition pipeline graph first source = .ok condition)
            (later : compileConditions pipeline graph rest = .error error) :
            ∃ before step after source, first :: rest = before ++ step :: after ∧
              (∀ earlier ∈ before, ∀ source, earlier.condition = some source →
                ∃ condition, compileCondition pipeline graph earlier source = .ok condition) ∧
              step.condition = some source ∧
                compileCondition pipeline graph step source = .error error := by
          obtain ⟨before, step, after, source, rfl, admitted, offends⟩ := induction later
          exact ⟨first :: before, step, after, source, rfl,
            List.forall_mem_cons.2 ⟨passed, admitted⟩, offends⟩
        cases written : first.condition with
        | none =>
            simp only [written] at refused
            exact behind (fun source isSource => by simp [written] at isSource) refused
        | some source =>
            simp only [written] at refused
            cases own : compileCondition pipeline graph first source with
            | error fault =>
                simp only [own] at refused
                cases refused
                exact ⟨[], first, rest, source, rfl, by simp, written, own⟩
            | ok condition =>
                simp only [own] at refused
                refine behind (fun other isOther => ?_) (except_map_error refused)
                rw [written] at isOther
                cases isOther
                exact ⟨condition, own⟩
  · rintro ⟨before, step, after, source, rfl, admitted, written, offends⟩
    induction before with
    | nil =>
        rw [List.nil_append, compileConditions]
        simp only [written, offends]
    | cons first before induction =>
        obtain ⟨passed, others⟩ := List.forall_mem_cons.1 admitted
        rw [List.cons_append, compileConditions]
        cases firstWritten : first.condition with
        | none => exact induction others
        | some text =>
            obtain ⟨condition, own⟩ := passed text firstWritten
            simp only [own, induction others]
            rfl

theorem compile_ok_iff (pipeline : Pipeline) :
    (∃ compiled, compile pipeline = .ok compiled) ↔
      (∃ graph, Graph.build pipeline = .ok graph) ∧
        ∀ step ∈ pipeline.steps, pipeline.Admits step := by
  constructor
  · rintro ⟨compiled, compiles⟩
    have plans := compile_plans compiles
    refine ⟨⟨compiled.graph, (compile_parts compiles).2.1⟩, fun step member => ?_⟩
    rw [admits_iff plans]
    intro source written
    obtain ⟨condition, has, _⟩ := exists_condition compiles member written
    obtain ⟨other, otherWritten, own⟩ := condition_source compiles member has
    rw [written] at otherWritten
    cases otherWritten
    exact ⟨condition, own⟩
  · rintro ⟨⟨graph, built⟩, admitted⟩
    have plans := Graph.build_plans built
    obtain ⟨conditions, compiles⟩ := compile_conditions_of_each fun step member =>
      (admits_iff plans).1 (admitted step member)
    exact ⟨⟨pipeline, graph, conditions⟩, by simp only [compile, built, compiles]; rfl⟩

theorem compile_error_iff (pipeline : Pipeline) (error : BuildError) :
    compile pipeline = .error error ↔ pipeline.FirstFault error := by
  rw [compile]
  cases built : Graph.build pipeline with
  | error fault =>
      constructor
      · intro refused
        cases refused
        exact .graph built
      · intro first
        cases first with
        | graph refused =>
            rw [built] at refused
            cases refused
            rfl
        | condition otherBuilt => rw [built] at otherBuilt; cases otherBuilt
  | ok graph =>
      have plans := Graph.build_plans built
      constructor
      · intro refused
        obtain ⟨before, step, after, source, split, passed, written, offends⟩ :=
          compile_conditions_error_iff.1 (except_map_error refused)
        exact .condition built split
          (fun earlier member => (admits_iff plans).2 (passed earlier member)) written
          ((compile_condition_error_iff plans).1 offends)
      · intro first
        cases first with
        | graph refused => rw [built] at refused; cases refused
        | condition otherBuilt split admitted written offends =>
            have refused := compile_conditions_error_iff.2 ⟨_, _, _, _, split,
              fun earlier member => (admits_iff plans).1 (admitted earlier member), written,
              (compile_condition_error_iff plans).2 offends⟩
            simp only [refused]
            rfl

/-- Compiling accepts exactly the pipelines with a graph and with conditions that can be read
and mention only what is defined, and else names the first fault. A compiled pipeline has the
condition of each step that has one, read from its own text, and no run looks up a variable
that is not defined. -/
theorem compile_exact (pipeline : Pipeline) :
    ((∃ compiled, compile pipeline = .ok compiled) ↔
      (∃ graph, Graph.build pipeline = .ok graph) ∧
        ∀ step ∈ pipeline.steps, pipeline.Admits step) ∧
    (∀ error, compile pipeline = .error error ↔ pipeline.FirstFault error) ∧
    ∀ compiled, compile pipeline = .ok compiled →
      (∀ step ∈ pipeline.steps,
        ((compiled.condition? step.id).isSome ↔ step.condition.isSome) ∧
          ∀ condition, compiled.condition? step.id = some condition ↔
            ∃ source, step.condition = some source ∧ Condition.parse source = .ok condition) ∧
      (∀ id, id ∉ pipeline.stepIds → compiled.condition? id = none) ∧
      ∀ (State : Type) (surroundings : Surroundings State) (identifier : RunIdentifier)
        (state : State), compiled.run? surroundings identifier state =
          some (compiled.run surroundings identifier state) := by
  refine ⟨compile_ok_iff pipeline, compile_error_iff pipeline, fun compiled compiles => ?_⟩
  refine ⟨fun step member => ⟨?_, fun condition => condition?_eq_some_iff compiles member⟩, ?_, ?_⟩
  · rw [Option.isSome_iff_exists, Option.isSome_iff_exists]
    constructor
    · rintro ⟨condition, has⟩
      obtain ⟨source, written, _⟩ := condition_source compiles member has
      exact ⟨source, written⟩
    · rintro ⟨source, written⟩
      obtain ⟨condition, has, _⟩ := exists_condition compiles member written
      exact ⟨condition, has⟩
  · intro id undeclared
    apply lookup_eq_none_of_keys
    rintro entry present rfl
    exact undeclared (compile_conditions_keys (compile_parts compiles).2.2 entry present)
  · intro State surroundings identifier state
    exact run_strictly compiles surroundings identifier state

end CompiledPipeline

def gatedStep (gate : String) : Step :=
  ⟨"deploy", "Deploy", .shell "make deploy" none, ["build"],
    Dictionary.ofList [("CHANNEL", "stable"), ("DRY_RUN", "0")], some gate⟩

def gatedPipeline (deployGate reportGate : String) : Pipeline :=
  { name := "gated"
    description := ""
    steps :=
      [⟨"build", "Build", .shell "make" none, [], {}, none⟩, gatedStep deployGate,
        ⟨"report", "Report", .shell "make report" none, ["build"], {}, some reportGate⟩]
    environment := Dictionary.ofList [("CHANNEL", "beta")] }

def nestedGate : String :=
  "!($CHANNEL == 'stable' and (deploy failed or $DRY_RUN)) or build skipped"

def looseGate : String := "not ($CHANNEL && ('é' != $DRY_RUN or lint failed)) or env.GHOST"

def unreadableGate : String := "build succeeded or ("

theorem gated_pipeline_checked :
    (∃ compiled,
      CompiledPipeline.compile (gatedPipeline nestedGate "env.CHANNEL") = .ok compiled ∧
        (compiled.condition? "deploy").isSome ∧ compiled.condition? "lint" = none) ∧
    (gatedPipeline nestedGate looseGate).FirstFault (.undefined "report" (.variable "DRY_RUN")) ∧
    (gatedPipeline looseGate unreadableGate).FirstFault (.undefined "deploy" (.step "lint")) ∧
    (gatedPipeline unreadableGate looseGate).FirstFault
      (.condition "deploy" ⟨20, .unexpectedEnd⟩) := by
  refine ⟨?_, (CompiledPipeline.compile_exact _).2.1 _ |>.1 (by cbv),
    (CompiledPipeline.compile_exact _).2.1 _ |>.1 (by cbv),
    (CompiledPipeline.compile_exact _).2.1 _ |>.1 (by cbv)⟩
  obtain ⟨compiled, compiles⟩ : ∃ compiled,
      CompiledPipeline.compile (gatedPipeline nestedGate "env.CHANNEL") = .ok compiled :=
    ⟨_, by cbv⟩
  have exact := (CompiledPipeline.compile_exact _).2.2 compiled compiles
  have declared : gatedStep nestedGate ∈ (gatedPipeline nestedGate "env.CHANNEL").steps := by
    simp [gatedPipeline]
  exact ⟨compiled, compiles, (exact.1 _ declared).1.2 rfl, exact.2.1 "lint" (by decide)⟩

end PipelineWaves
