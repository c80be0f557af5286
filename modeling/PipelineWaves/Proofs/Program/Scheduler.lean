import PipelineWaves.Proofs.Program.Arms
import PipelineWaves.Time.Duration

/-!
# The scheduler of a program

What a generated program does when it runs. It knows its steps by their positions in
the table only. Wave by wave it first looks at each step of the wave: a step that is
blocked by a failed one is skipped, so is a step whose condition is false, and all
others are runnable. These are carried out in chunks of limited size, side by side
within a chunk, and then settled in order: a failed step blocks its dependents, unless
they are blocked already. An access outside of a table ends the program without a
result, and so does a condition that is no well-formed expression.
-/

set_option autoImplicit false

namespace PipelineWaves

structure StepRun where
  outcome : StepOutcome
  stdout : String
  stderr : String
  detail : Option String
  duration : Duration
deriving DecidableEq, Repr

namespace StepRun

def aborted : StepRun := ⟨.failed, "", "", some "step thread panicked", .zero⟩

def joined (run : Option StepRun) : StepRun := run.getD aborted

end StepRun

inductive StepNotice where
  | skipped (id reason : String)
  | finished (id : String) (run : StepRun)
deriving DecidableEq, Repr

/-- The variables of a running program, and what it has printed about steps so far. -/
structure SchedulerState where
  outcomes : List (Option StepOutcome)
  blockedBy : List (Option Nat)
  notices : List StepNotice
deriving DecidableEq, Repr

def assign? {Item : Type} (items : List Item) (index : Nat) (item : Item) : Option (List Item) :=
  if index < items.length then some (items.set index item) else none

namespace SchedulerState

def start (steps : Nat) : SchedulerState :=
  ⟨List.replicate steps none, List.replicate steps none, []⟩

def skip (state : SchedulerState) (index : Nat) (id reason : String) : Option SchedulerState := do
  let outcomes ← assign? state.outcomes index (some .skipped)
  .some { state with outcomes, notices := state.notices ++ [.skipped id reason] }

end SchedulerState

/-- The first items up to a length, then the next ones, and so on. -/
def chunksOf {Item : Type} (size : Nat) : List Item → List (List Item)
  | [] => []
  | first :: rest => (first :: rest.take (size - 1)) :: chunksOf size (rest.drop (size - 1))
termination_by items => items.length
decreasing_by
  simp only [List.length_drop, List.length_cons]
  omega

def ExpressionValue.boolean? : ExpressionValue → Option Bool
  | .boolean value => some value
  | _ => none

/-- A finished program: its last state and the ids that it lists at the end. -/
structure ProgramRun where
  state : SchedulerState
  succeeded : List String
  failed : List String
  skipped : List String
  skippedByFailure : List String
deriving DecidableEq, Repr

def ProgramRun.exitCode (run : ProgramRun) : Nat := if run.failed.isEmpty then 0 else 1

namespace ScheduledProgram

/-- The value of the condition at a position: the first arm for it applies, and without an
arm the condition holds. -/
def conditionHolds? (program : ScheduledProgram) (index : Nat)
    (environment : List (String × String)) (outcomes : List (Option StepOutcome)) : Option Bool :=
  match program.arms.lookup index with
  | none => some true
  | some source => do
      let term ← ExpressionTerm.read source
      let value ← term.value ⟨environment, outcomes⟩
      value.boolean?

def dependencyFailed (failed : ProgramStep) : String := s!"dependency '{failed.id}' failed"

def conditionFalse : String := "condition evaluated to false"

def resolve (program : ScheduledProgram) (state : SchedulerState) (index : Nat) :
    Option (SchedulerState × Bool) := do
  let step ← program.tables.steps[index]?
  match ← state.blockedBy[index]? with
  | some cause =>
      let failed ← program.tables.steps[cause]?
      let state ← state.skip index step.id (dependencyFailed failed)
      .some (state, false)
  | none =>
      if ← program.conditionHolds? index step.environment state.outcomes then .some (state, true)
      else
        let state ← state.skip index step.id conditionFalse
        .some (state, false)

def resolveWave (program : ScheduledProgram) (state : SchedulerState) :
    List Nat → Option (SchedulerState × List Nat)
  | [] => some (state, [])
  | index :: rest => do
      let (state, isRunnable) ← program.resolve state index
      let (state, runnable) ← resolveWave program state rest
      .some (state, if isRunnable then index :: runnable else runnable)

/-- Blames a failed step for a dependent, unless another one is blamed already. -/
def block (cause : Nat) (blockedBy : List (Option Nat)) (dependent : Nat) :
    Option (List (Option Nat)) := do
  match ← blockedBy[dependent]? with
  | some _ => .some blockedBy
  | none => assign? blockedBy dependent (some cause)

def blockDependents (program : ScheduledProgram) (index : Nat) (run : StepRun)
    (blockedBy : List (Option Nat)) : Option (List (Option Nat)) := do
  if run.outcome = .failed then
    let dependents ← program.tables.dependents[index]?
    dependents.foldlM (block index) blockedBy
  else .some blockedBy

def settle (program : ScheduledProgram) (state : SchedulerState) (index : Nat) (run : StepRun) :
    Option SchedulerState := do
  let step ← program.tables.steps[index]?
  let blockedBy ← program.blockDependents index run state.blockedBy
  let outcomes ← assign? state.outcomes index (some run.outcome)
  .some ⟨outcomes, blockedBy, state.notices ++ [.finished step.id run]⟩

/-- Carries out a chunk side by side and settles its steps when all are done. -/
def runChunk (program : ScheduledProgram) (runs : ProgramStep → Option StepRun)
    (state : SchedulerState) (chunk : List Nat) : Option SchedulerState := do
  let finished ← chunk.mapM fun index =>
    program.tables.steps[index]?.map fun step => (index, StepRun.joined (runs step))
  finished.foldlM (fun state entry => program.settle state entry.1 entry.2) state

def runWave (program : ScheduledProgram) (limit : Option Nat)
    (runs : ProgramStep → Option StepRun) (state : SchedulerState) (wave : List Nat) :
    Option SchedulerState := do
  let (state, runnable) ← program.resolveWave state wave
  let size := max (limit.getD runnable.length) 1
  (chunksOf size runnable).foldlM (program.runChunk runs) state

/-- The ids of the steps for which a value of the same position passes the test. -/
def idsWhere {Item : Type} (program : ScheduledProgram) (items : List Item) (test : Item → Bool) :
    List String :=
  ((program.tables.steps.zip items).filter fun entry => test entry.2).map fun entry => entry.1.id

def finish (program : ScheduledProgram) (state : SchedulerState) : ProgramRun :=
  let idsWith (outcome : StepOutcome) : List String :=
    program.idsWhere state.outcomes fun recorded => recorded = some outcome
  { state
    succeeded := idsWith .success
    failed := idsWith .failed
    skipped := idsWith .skipped
    skippedByFailure := program.idsWhere state.blockedBy Option.isSome }

def run (program : ScheduledProgram) (limit : Option Nat)
    (runs : ProgramStep → Option StepRun) : Option ProgramRun := do
  let state ← program.tables.waves.foldlM (program.runWave limit runs)
    (.start program.tables.steps.length)
  .some (program.finish state)

end ScheduledProgram

namespace ScheduledProgram

def runStep (program : ScheduledProgram) (runs : ProgramStep → Option StepRun)
    (state : SchedulerState) (index : Nat) : Option SchedulerState := do
  let step ← program.tables.steps[index]?
  program.settle state index (StepRun.joined (runs step))

theorem run_chunk (program : ScheduledProgram) (runs : ProgramStep → Option StepRun)
    (state : SchedulerState) (chunk : List Nat) :
    program.runChunk runs state chunk = chunk.foldlM (program.runStep runs) state := by
  -- All steps of a chunk are carried out before the first one is settled.
  rw [runChunk]
  induction chunk generalizing state with
  | nil => rfl
  | cons index rest induction =>
      rw [List.mapM_cons, List.foldlM_cons, runStep]
      cases program.tables.steps[index]? with
      | none => rfl
      | some step =>
          simp only [Option.bind_eq_bind, Option.pure_def, Option.map_some, Option.bind_some,
            Option.bind_assoc, List.foldlM_cons]
          cases settled : program.settle state index (StepRun.joined (runs step)) with
          | none => exact Option.bind_fun_none _
          | some next => exact induction next

/-- Where the chunks end makes no difference. -/
theorem run_chunks (program : ScheduledProgram) (runs : ProgramStep → Option StepRun)
    (state : SchedulerState) (size : Nat) (runnable : List Nat) :
    (chunksOf size runnable).foldlM (program.runChunk runs) state =
      runnable.foldlM (program.runStep runs) state := by
  fun_induction chunksOf size runnable generalizing state with
  | case1 => rfl
  | case2 first rest induction =>
      have split : first :: rest =
          (first :: rest.take (size - 1)) ++ rest.drop (size - 1) := by
        rw [List.cons_append, List.take_append_drop]
      rw [split, List.foldlM_append, List.foldlM_cons, run_chunk]
      exact congrArg _ (funext induction)

end ScheduledProgram

end PipelineWaves
