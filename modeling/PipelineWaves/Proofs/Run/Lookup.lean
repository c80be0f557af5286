import PipelineWaves.Proofs.Compilation
import PipelineWaves.Run.Engine

/-!
# Variables looked up in a run

A variable that is not defined counts as the empty text when a condition is evaluated. The
strict reading has no such fallback: it gives nothing as soon as a variable is looked up
that the environment of the step does not hold, and so does a run that reads its conditions
strictly. A compiled pipeline runs the same either way, so the fallback is never used.
-/

set_option autoImplicit false

namespace PipelineWaves

namespace Operand

def value? (environment : Environment) : Operand → Option String
  | .variable name => environment.get? name
  | literal text => some text

def isTruthy? (environment : Environment) : Operand → Option Bool
  | .variable name => (environment.get? name).map Environment.isTruthy
  | literal text => some (text ≠ "")

variable {environment : Environment} {declared : String → Bool} {operand : Operand}

theorem value_of_defined
    (defined : ∀ reference ∈ operand.references, Condition.isDefined environment declared reference) :
    operand.value? environment = some (operand.value environment) := by
  match operand with
  | .literal text => rfl
  | .variable name =>
      have found := defined (.variable name) List.mem_cons_self
      obtain ⟨text, isText⟩ := Option.isSome_iff_exists.1 found
      rw [value?, value, Environment.valueOf, isText, Option.getD_some]

theorem is_truthy_of_defined
    (defined : ∀ reference ∈ operand.references, Condition.isDefined environment declared reference) :
    operand.isTruthy? environment = some (operand.isTruthy environment) := by
  match operand with
  | .literal text => rfl
  | .variable name =>
      have found := defined (.variable name) List.mem_cons_self
      obtain ⟨text, isText⟩ := Option.isSome_iff_exists.1 found
      rw [isTruthy?, isTruthy, Environment.valueOf, isText, Option.map_some, Option.getD_some]

end Operand

namespace Condition

/-- The value of a condition, if every variable that is looked up for it is defined. -/
def evaluate? (environment : Environment) (outcomes : Outcomes) : Condition → Option Bool
  | constant value => some value
  | truthy operand => operand.isTruthy? environment
  | compare left how right => do
      let leftValue ← left.value? environment
      let rightValue ← right.value? environment
      return how.holds leftValue rightValue
  | stepIs step outcome => some (outcomes step = some outcome)
  | not inner => (inner.evaluate? environment outcomes).map (!·)
  | and left right => do
      if ← left.evaluate? environment outcomes then right.evaluate? environment outcomes
      else return false
  | or left right => do
      if ← left.evaluate? environment outcomes then return true
      else right.evaluate? environment outcomes

theorem evaluate_of_defined {environment : Environment} {declared : String → Bool}
    (outcomes : Outcomes) {condition : Condition}
    (defined : ∀ reference ∈ condition.references, isDefined environment declared reference) :
    condition.evaluate? environment outcomes = some (condition.evaluate environment outcomes) := by
  induction condition with
  | constant value => rfl
  | truthy operand => exact Operand.is_truthy_of_defined defined
  | compare left how right =>
      obtain ⟨onLeft, onRight⟩ := List.forall_mem_append.1 defined
      rw [evaluate?, evaluate, Operand.value_of_defined onLeft, Operand.value_of_defined onRight]
      rfl
  | stepIs step outcome => rfl
  | not inner induction => rw [evaluate?, evaluate, induction defined, Option.map_some]
  | and left right leftInduction rightInduction =>
      obtain ⟨onLeft, onRight⟩ := List.forall_mem_append.1 defined
      rw [evaluate?, evaluate, leftInduction onLeft, rightInduction onRight]
      cases left.evaluate environment outcomes <;> rfl
  | or left right leftInduction rightInduction =>
      obtain ⟨onLeft, onRight⟩ := List.forall_mem_append.1 defined
      rw [evaluate?, evaluate, leftInduction onLeft, rightInduction onRight]
      cases left.evaluate environment outcomes <;> rfl

end Condition

namespace CompiledPipeline

variable {State : Type}

def conditionHolds? (compiled : CompiledPipeline) (outcomes : Outcomes) (step : Step) :
    Option Bool :=
  match compiled.condition? step.id with
  | some condition => condition.evaluate? (compiled.pipeline.environmentOf step) outcomes
  | none => some true

def resolve? (compiled : CompiledPipeline) (progress : RunProgress) (step : Step) :
    Option Resolution :=
  match compiled.blockedBy? progress.failures step.id with
  | some failed => some (.blocked failed)
  | none =>
      (compiled.conditionHolds? progress.outcomes step).map fun holds =>
        if holds then .dispatched else .conditionFalse

def resolveWave? (compiled : CompiledPipeline) (progress : RunProgress) :
    List Step → Option (RunProgress × List Dispatch)
  | [] => some (progress, [])
  | step :: rest => do
      match ← compiled.resolve? progress step with
      | .blocked failed =>
          resolveWave? compiled (progress.skip step.id (SkipReason.dependencyFailed failed)) rest
      | .conditionFalse =>
          resolveWave? compiled (progress.skip step.id SkipReason.conditionFalse) rest
      | .dispatched =>
          let (progress, dispatches) ←
            resolveWave? compiled (progress.announce (.stepStarted step.id)) rest
          return (progress, ⟨step, compiled.pipeline.environmentOf step⟩ :: dispatches)

def runWave? (compiled : CompiledPipeline) (surroundings : Surroundings State) (index : Nat)
    (wave : List GraphNode) (progress : RunProgress) (state : State) :
    Option (RunProgress × State) := do
  let progress := progress.announce (.waveStarted index (wave.map GraphNode.id))
  let (progress, dispatches) ← compiled.resolveWave? progress (compiled.waveSteps wave)
  let (finished, state) := surroundings.perform dispatches state
  let progress := (completeResults dispatches finished).foldl RunProgress.settle progress
  return (progress.announce (.waveCompleted index), state)

def runWaves? (compiled : CompiledPipeline) (surroundings : Surroundings State) (index : Nat) :
    List (List GraphNode) → RunProgress → State → Option (RunProgress × State × Bool)
  | [], progress, state => some (progress, state, false)
  | wave :: rest, progress, state =>
      if surroundings.isInterrupted progress.events state then
        some (interrupt (wave :: rest) progress, state, true)
      else do
        let (progress, state) ← compiled.runWave? surroundings index wave progress state
        compiled.runWaves? surroundings (index + 1) rest progress state

/-- A run that ends where a condition looks up a variable that is not defined. -/
def run? (compiled : CompiledPipeline) (surroundings : Surroundings State)
    (identifier : RunIdentifier) (state : State) : Option (Run State) := do
  let name := compiled.pipeline.name
  let report := RunReport.start identifier name (surroundings.now state)
  let started : RunEvent :=
    .runStarted identifier name compiled.graph.planIds.length compiled.graph.waves.length
  let (progress, state, interrupted) ←
    compiled.runWaves? surroundings 0 compiled.graph.waves ⟨[], [started]⟩ state
  let report :=
    { report with results := compiled.graph.planIds.filterMap progress.resultOf }
  let report := report.finish interrupted (surroundings.now state)
  return {
    report
    events := progress.events ++ [.runCompleted identifier report.status]
    state }

variable {pipeline : Pipeline} {compiled : CompiledPipeline}

theorem condition_holds_strictly (compiles : compile pipeline = .ok compiled) {step : Step}
    (member : step ∈ pipeline.steps) (outcomes : Outcomes) :
    compiled.conditionHolds? outcomes step = some (compiled.conditionHolds outcomes step) := by
  rw [conditionHolds?, conditionHolds]
  cases has : compiled.condition? step.id with
  | none => rfl
  | some condition =>
      rw [(compile_parts compiles).1]
      exact Condition.evaluate_of_defined outcomes (condition_defined compiles member has)

theorem resolve_strictly (compiles : compile pipeline = .ok compiled) {step : Step}
    (member : step ∈ pipeline.steps) (progress : RunProgress) :
    compiled.resolve? progress step = some (compiled.resolve progress step) := by
  rw [resolve?, resolve, condition_holds_strictly compiles member, Option.map_some]
  cases compiled.blockedBy? progress.failures step.id <;> rfl

theorem resolve_wave_strictly (compiles : compile pipeline = .ok compiled)
    (progress : RunProgress) {steps : List Step} (declared : ∀ step ∈ steps, step ∈ pipeline.steps) :
    compiled.resolveWave? progress steps = some (compiled.resolveWave progress steps) := by
  induction steps generalizing progress with
  | nil => rfl
  | cons step rest induction =>
      obtain ⟨first, others⟩ := List.forall_mem_cons.1 declared
      rw [resolveWave?, resolveWave, resolve_strictly compiles first, Option.bind_eq_bind,
        Option.bind_some]
      cases compiled.resolve progress step with
      | blocked failed => exact induction _ others
      | conditionFalse => exact induction _ others
      | dispatched =>
          simp only [induction _ others]
          rfl

theorem wave_steps_declared (compiled : CompiledPipeline) (wave : List GraphNode) :
    ∀ step ∈ compiled.waveSteps wave, step ∈ compiled.pipeline.steps := by
  intro step member
  obtain ⟨node, _, found⟩ := List.mem_filterMap.1 member
  exact List.mem_of_find?_eq_some found

theorem run_wave_strictly (compiles : compile pipeline = .ok compiled)
    (surroundings : Surroundings State) (index : Nat) (wave : List GraphNode)
    (progress : RunProgress) (state : State) :
    compiled.runWave? surroundings index wave progress state =
      some (compiled.runWave surroundings index wave progress state) := by
  have declared := compiled.wave_steps_declared wave
  rw [(compile_parts compiles).1] at declared
  simp only [runWave?, resolve_wave_strictly compiles _ declared]
  rfl

theorem run_waves_strictly (compiles : compile pipeline = .ok compiled)
    (surroundings : Surroundings State) (index : Nat) (waves : List (List GraphNode))
    (progress : RunProgress) (state : State) :
    compiled.runWaves? surroundings index waves progress state =
      some (compiled.runWaves surroundings index waves progress state) := by
  induction waves generalizing index progress state with
  | nil => rfl
  | cons wave rest induction =>
      rw [runWaves?, runWaves]
      split
      · rfl
      · rw [run_wave_strictly compiles, Option.bind_eq_bind, Option.bind_some]
        exact induction _ _ _

theorem run_strictly (compiles : compile pipeline = .ok compiled)
    (surroundings : Surroundings State) (identifier : RunIdentifier) (state : State) :
    compiled.run? surroundings identifier state =
      some (compiled.run surroundings identifier state) := by
  simp only [run?, run_waves_strictly compiles]
  rfl

end CompiledPipeline

end PipelineWaves
