import PipelineWaves.Compiled
import PipelineWaves.Run.Event
import PipelineWaves.Run.Report

/-!
# Runs

A compiled pipeline runs wave by wave. First every step of a wave is resolved in
order of declaration: it is skipped when a failed step is among its ancestors or
when its condition is false against the results recorded so far, and dispatched
otherwise. Then the dispatched steps are carried out, and a result is recorded
for each of them in the order in which they finish; a step that finishes without
a result counts as failed. The next wave starts only then.

What carries the steps out is not fixed here. `Surroundings` says how dispatched
steps change a state and which of their results come back in which order, and
when an interruption is noticed. The run itself depends on nothing else.
-/

set_option autoImplicit false

namespace PipelineWaves

/-- A step that is to be carried out, with the environment it sees. -/
structure Dispatch where
  step : Step
  environment : Environment
deriving DecidableEq, Repr

structure Surroundings (State : Type) where
  /-- Whether an interruption has been noticed after the events so far. -/
  isInterrupted : List RunEvent → State → Bool
  /-- Carries out the dispatched steps of a wave; results come in finishing order. -/
  perform : List Dispatch → State → List StepResult × State
  now : State → Instant

/-- The part of a run that is over; the latest result and event stand last. -/
structure RunProgress where
  recorded : List StepResult
  events : List RunEvent
deriving DecidableEq, Repr

namespace RunProgress

def resultOf (progress : RunProgress) (id : String) : Option StepResult :=
  progress.recorded.find? fun result => result.stepId = id

def outcomes (progress : RunProgress) : Outcomes :=
  fun id => (progress.resultOf id).map StepResult.outcome

def failures (progress : RunProgress) : List String :=
  (progress.recorded.filter StepResult.isFailed).map StepResult.stepId

def announce (progress : RunProgress) (event : RunEvent) : RunProgress :=
  { progress with events := progress.events ++ [event] }

def record (progress : RunProgress) (result : StepResult) : RunProgress :=
  { progress with recorded := progress.recorded ++ [result] }

def skip (progress : RunProgress) (id reason : String) : RunProgress :=
  (progress.announce (.stepSkipped id reason)).record (.skipped id reason)

/-- Announces how a dispatched step ended and records its result. -/
def settle (progress : RunProgress) (result : StepResult) : RunProgress :=
  let event : RunEvent :=
    if result.isFailed then
      .stepFailed result.stepId (result.detail.getD "") result.stderr
    else .stepSucceeded result.stepId result.duration
  (progress.announce event).record result

end RunProgress

inductive Resolution where
  | blocked (failed : String)
  | conditionFalse
  | dispatched
deriving DecidableEq, Repr

namespace CompiledPipeline

/-- A failed step blocks its dependents, except those that another one blocks already. -/
def block (compiled : CompiledPipeline) (cascade : Dictionary String) (failed : String) :
    Dictionary String :=
  (compiled.graph.transitiveDependents failed).foldl
    (fun cascade dependent => cascade.insertNew dependent failed) cascade

/-- The steps blocked by failures, each with the failed step that it is skipped for. -/
def cascade (compiled : CompiledPipeline) (failures : List String) : Dictionary String :=
  failures.foldl compiled.block ∅

def blockedBy? (compiled : CompiledPipeline) (failures : List String) (id : String) :
    Option String :=
  (compiled.cascade failures).get? id

def conditionHolds (compiled : CompiledPipeline) (outcomes : Outcomes) (step : Step) : Bool :=
  match compiled.condition? step.id with
  | some condition => condition.evaluate (compiled.pipeline.environmentOf step) outcomes
  | none => true

def resolve (compiled : CompiledPipeline) (progress : RunProgress) (step : Step) : Resolution :=
  match compiled.blockedBy? progress.failures step.id with
  | some failed => .blocked failed
  | none => if compiled.conditionHolds progress.outcomes step then .dispatched else .conditionFalse

/-- Resolves the steps of a wave in order; skips are recorded at once. -/
def resolveWave (compiled : CompiledPipeline) (progress : RunProgress) :
    List Step → RunProgress × List Dispatch
  | [] => (progress, [])
  | step :: rest =>
      match compiled.resolve progress step with
      | .blocked failed =>
          resolveWave compiled (progress.skip step.id (SkipReason.dependencyFailed failed)) rest
      | .conditionFalse =>
          resolveWave compiled (progress.skip step.id SkipReason.conditionFalse) rest
      | .dispatched =>
          let (progress, dispatches) :=
            resolveWave compiled (progress.announce (.stepStarted step.id)) rest
          (progress, ⟨step, compiled.pipeline.environmentOf step⟩ :: dispatches)

def completeResults (dispatches : List Dispatch) (finished : List StepResult) :
    List StepResult :=
  let lost := dispatches.filter fun dispatch =>
    !finished.any fun result => result.stepId = dispatch.step.id
  finished ++ lost.map fun dispatch => .aborted dispatch.step.id

def waveSteps (compiled : CompiledPipeline) (wave : List GraphNode) : List Step :=
  wave.filterMap fun node => compiled.pipeline.step? node.id

variable {State : Type}

def runWave (compiled : CompiledPipeline) (surroundings : Surroundings State) (index : Nat)
    (wave : List GraphNode) (progress : RunProgress) (state : State) : RunProgress × State :=
  let progress := progress.announce (.waveStarted index (wave.map GraphNode.id))
  let (progress, dispatches) := compiled.resolveWave progress (compiled.waveSteps wave)
  let (finished, state) := surroundings.perform dispatches state
  let progress := (completeResults dispatches finished).foldl RunProgress.settle progress
  (progress.announce (.waveCompleted index), state)

def interrupt (waves : List (List GraphNode)) (progress : RunProgress) : RunProgress :=
  let remaining := waves.flatten.map GraphNode.id
  remaining.foldl (fun progress id => progress.skip id SkipReason.interrupted)
    (progress.announce (.runInterrupted remaining.length))

/-- Runs the remaining waves; the last component tells whether the run was interrupted. -/
def runWaves (compiled : CompiledPipeline) (surroundings : Surroundings State) (index : Nat) :
    List (List GraphNode) → RunProgress → State → RunProgress × State × Bool
  | [], progress, state => (progress, state, false)
  | wave :: rest, progress, state =>
      if surroundings.isInterrupted progress.events state then
        (interrupt (wave :: rest) progress, state, true)
      else
        let (progress, state) := compiled.runWave surroundings index wave progress state
        compiled.runWaves surroundings (index + 1) rest progress state

structure Run (State : Type) where
  report : RunReport
  events : List RunEvent
  state : State

def run (compiled : CompiledPipeline) (surroundings : Surroundings State)
    (identifier : RunIdentifier) (state : State) : Run State :=
  let name := compiled.pipeline.name
  let report := RunReport.start identifier name (surroundings.now state)
  let started : RunEvent :=
    .runStarted identifier name compiled.graph.planIds.length compiled.graph.waves.length
  let (progress, state, interrupted) :=
    compiled.runWaves surroundings 0 compiled.graph.waves ⟨[], [started]⟩ state
  let report :=
    { report with results := compiled.graph.planIds.filterMap progress.resultOf }
  let report := report.finish interrupted (surroundings.now state)
  { report
    events := progress.events ++ [.runCompleted identifier report.status]
    state }

end CompiledPipeline

end PipelineWaves
