import PipelineWaves.Proofs.Program.Performance

/-!
# Programs act as recipes

Every step of a pipeline has its entry in the tables of the generated program, and the
program carries the entry out as the recipe of the step does whenever the recipe accepts the
action. An action that its recipe rejects touches nothing there; the program stops only at
a bad key of a cache, and carries out the others.
-/

set_option autoImplicit false

namespace PipelineWaves

open Attempt

namespace ProgramTables

theorem step_written {tables : ProgramTables} {steps : List ProgramStep} {start : Nat}
    {texts : List (String × Option String)}
    (written : tables.allStepTexts (steps.zipIdx start) = .ok texts) :
    ∀ step ∈ steps, ∃ index text, step.text index = .ok text := by
  induction steps generalizing start texts with
  | nil => simp
  | cons first rest induction =>
      rw [List.zipIdx_cons] at written
      obtain ⟨own, ownWritten, written⟩ := except_bind_ok written
      obtain ⟨others, othersWritten, _⟩ := except_bind_ok written
      exact List.forall_mem_cons.2 ⟨⟨_, _, (step_texts_ok ownWritten).1⟩, induction othersWritten⟩

end ProgramTables

theorem ProgramStep.action_written {step : ProgramStep} {index : Nat} {text : String}
    (written : step.text index = .ok text) : ∃ literal, step.action.text step.id = .ok literal := by
  obtain ⟨_, _, written⟩ := except_bind_ok written
  obtain ⟨_, _, written⟩ := except_bind_ok written
  obtain ⟨_, _, written⟩ := except_bind_ok written
  obtain ⟨literal, actionWritten, _⟩ := except_bind_ok written
  exact ⟨literal, actionWritten⟩

theorem ProgramText.quotable {context text literal : String}
    (quoted : quote context text = .ok literal) : containsNul text = false := by
  rw [quote] at quoted
  obtain ⟨printable, _⟩ := except_guard_ok quoted
  exact Bool.eq_false_iff.2 printable

namespace CompiledPipeline

variable {pipeline : Pipeline} {compiled : CompiledPipeline} {program : GeneratedProgram}

/-- The steps in the tables of a program are the steps of its pipeline, each with a text. -/
theorem generated_entries (compiles : compile pipeline = .ok compiled)
    (generated : compiled.generate = .ok program) :
    ∃ tables, program.main?.bind EmittedTables.read = some tables ∧
      (tables.steps.map ProgramStep.id).Nodup ∧
      ∀ step ∈ pipeline.steps, ProgramStep.of pipeline step ∈ tables.steps ∧
        ∃ index text, (ProgramStep.of pipeline step).text index = .ok text := by
  obtain ⟨tables, texts, read, distinct, entries, written⟩ := generated_tables compiles generated
  refine ⟨tables, read, distinct, fun step member => ?_⟩
  have entry : ProgramStep.of pipeline step ∈ tables.steps :=
    entries.mem_iff.2 (List.mem_map_of_mem member)
  exact ⟨entry, ProgramTables.step_written written _ entry⟩

end CompiledPipeline

namespace ProgramHost

variable {host : ProgramHost} {pipeline : Pipeline} {step : Step} {world : World}

theorem run_step_parts (host : ProgramHost) (world : World) (entry : ProgramStep)
    (duration : Duration) :
    let ended := (host.runAction entry.environment entry.action).outcome ⟨world, "", ""⟩
    let (run, after) := host.runStep entry duration world
    after = ended.2.world ∧ run.stdout = ended.2.stdout ∧ run.stderr = ended.2.stderr ∧
      (run.outcome = .success ↔ ended.1.isOk = true) := by
  rw [runStep]
  rcases (host.runAction entry.environment entry.action).outcome ⟨world, "", ""⟩ with
    ⟨detail | _, after⟩
  · exact ⟨rfl, rfl, rfl, by simp [Except.isOk, Except.toBool]⟩
  · exact ⟨rfl, rfl, rfl, by simp [Except.isOk, Except.toBool]⟩

theorem run_step_eq_perform {ready : ReadyAction} (duration : Duration)
    (accepted : step.action.ready host.settings host.machine.home = .ok ready)
    (finds : host.Finds world.files step.action) :
    let performance := host.workshop.perform step.action (pipeline.environmentOf step) world
    let (run, after) := host.runStep (.of pipeline step) duration world
    after = performance.world ∧ run.stdout = performance.output.stdout ∧
      run.stderr = performance.output.stderr ∧
      (run.outcome = .success ↔ performance.result.isOk = true) := by
  have mirrored : MirroredBy .of ⟨world, .none⟩ Eq
      (ready.run Station.registry (host.workshop.placeFor (pipeline.environmentOf step)))
      (host.runAction (pipeline.environmentOf step).entries (.of step.action)) :=
    action_mirrored accepted finds
  obtain ⟨results, states⟩ := mirrored
  obtain ⟨after, stdout, stderr, outcome⟩ := run_step_parts host world (.of pipeline step) duration
  rw [Workshop.perform, show step.action.ready host.workshop.settings
    host.workshop.machine.home = .ok ready from accepted]
  refine ⟨after.trans (congrArg ProgramState.world states.symm),
    stdout.trans (congrArg ProgramState.stdout states.symm),
    stderr.trans (congrArg ProgramState.stderr states.symm), ?_⟩
  rw [outcome]
  exact Bool.eq_iff_iff.1 results.isOk_eq.symm

theorem rejected_untouched {error : RecipeError}
    (rejected : step.action.ready host.settings host.machine.home = .error error) :
    host.workshop.perform step.action (pipeline.environmentOf step) world =
      ⟨.error (.failed error), .none, world⟩ := by
  rw [Workshop.perform, show step.action.ready host.workshop.settings
    host.workshop.machine.home = .error error from rejected]

theorem fault_of_rejected_cache {settings : RecipeSettings} {home key paths : String}
    {operation : CacheOperation} {directory : Option String} {error : RecipeError}
    (rejected : (Action.cache operation key paths directory).ready settings home = .error error) :
    ∃ reason, keyFault? key = some reason := by
  cases fault : keyFault? key with
  | some reason => exact ⟨reason, rfl⟩
  | none =>
      rw [Action.ready, CacheArchive.of, validateKey, fault] at rejected
      cases operation <;> cases rejected

theorem key_quotable {stepId literal key paths : String} {operation : CacheOperation}
    {directory : Option String} (written : (ProgramAction.of
      (.cache operation key paths directory)).text stepId = .ok literal) :
    containsNul key = false := by
  cases operation with
  | save =>
      obtain ⟨_, _, written⟩ := except_bind_ok written
      obtain ⟨_, quoted, _⟩ := except_bind_ok written
      exact ProgramText.quotable quoted
  | restore =>
      obtain ⟨_, quoted, _⟩ := except_bind_ok written
      exact ProgramText.quotable quoted

/-- The program refuses a bad key of a cache before it touches anything. -/
theorem rejected_cache_fails {error : RecipeError} {index : Nat} {text : String}
    (duration : Duration)
    (rejected : step.action.ready host.settings host.machine.home = .error error)
    (isCache : step.action.kind = .cache)
    (written : (ProgramStep.of pipeline step).text index = .ok text) :
    let (run, after) := host.runStep (.of pipeline step) duration world
    run.outcome = .failed ∧ after = world := by
  obtain ⟨literal, actionWritten⟩ := ProgramStep.action_written written
  rw [ProgramStep.of] at actionWritten
  cases action : step.action with
  | cache operation key paths directory =>
      rw [action] at rejected actionWritten
      obtain ⟨reason, fault⟩ := fault_of_rejected_cache rejected
      obtain ⟨detail, refuses⟩ := check_key_of_fault fault (key_quotable actionWritten)
      have fails : (host.runAction (ProgramStep.of pipeline step).environment
          (ProgramStep.of pipeline step).action).outcome ⟨world, "", ""⟩ =
            (.error detail, ⟨world, "", ""⟩) := by
        rw [ProgramStep.of, action]
        cases operation with
        | save =>
            rw [ProgramAction.of, runAction, saveCache, refuses]
            rfl
        | restore =>
            rw [ProgramAction.of, runAction, restoreCache, refuses]
            rfl
      rw [runStep, fails]
      exact ⟨rfl, rfl⟩
  | _ =>
      rw [action] at isCache
      cases isCache

end ProgramHost

/-- The program of a pipeline carries out each of its steps as the recipe of the step does, if
the recipe accepts the action and both look for its files in one place. An action that the
recipe rejects touches nothing there, and fails in the program likewise if it is a cache. -/
theorem program_acts_as_recipes {pipeline : Pipeline} {compiled : CompiledPipeline}
    {program : GeneratedProgram} (compiles : CompiledPipeline.compile pipeline = .ok compiled)
    (generated : compiled.generate = .ok program) :
    ∃ tables, program.main?.bind EmittedTables.read = some tables ∧
      (tables.steps.map ProgramStep.id).Nodup ∧
      ∀ step ∈ pipeline.steps, ∃ entry ∈ tables.steps, entry.id = step.id ∧
        ∀ (host : ProgramHost) (duration : Duration) (world : World),
          let ready := step.action.ready host.settings host.machine.home
          let performance := host.workshop.perform step.action (pipeline.environmentOf step) world
          let (run, after) := host.runStep entry duration world
          (ready.isOk = true → host.Finds world.files step.action →
            after = performance.world ∧ run.stdout = performance.output.stdout ∧
              run.stderr = performance.output.stderr ∧
              (run.outcome = .success ↔ performance.result.isOk = true)) ∧
          (ready.isOk = false →
            performance.result.isOk = false ∧ performance.world = world ∧
              (step.action.kind = .cache → run.outcome = .failed ∧ after = world)) := by
  obtain ⟨tables, read, distinct, entries⟩ := CompiledPipeline.generated_entries compiles generated
  refine ⟨tables, read, distinct, fun step member => ?_⟩
  obtain ⟨entry, index, text, written⟩ := entries step member
  refine ⟨.of pipeline step, entry, rfl, fun host duration world => ⟨?_, ?_⟩⟩
  · intro accepted finds
    cases ready : step.action.ready host.settings host.machine.home with
    | error error =>
        rw [ready] at accepted
        cases accepted
    | ok action => exact ProgramHost.run_step_eq_perform duration ready finds
  · intro rejected
    cases ready : step.action.ready host.settings host.machine.home with
    | ok action =>
        rw [ready] at rejected
        cases rejected
    | error error =>
        rw [ProgramHost.rejected_untouched ready]
        exact ⟨rfl, rfl, fun isCache =>
          ProgramHost.rejected_cache_fails duration ready isCache written⟩

def buildStep : Step := ⟨"build", "build", .shell "make" none, ["fetch"], {}, none⟩

/-- A step whose cache key leads out of the cache directory. -/
def fetchStep : Step := ⟨"fetch", "fetch", .cache .restore "../out" "" none, [], {}, none⟩

def packingPipeline : Pipeline :=
  { name := "packing", description := "", steps := [fetchStep, buildStep], environment := {} }

theorem packing_pipeline_carried_out :
    ∃ compiled program tables, CompiledPipeline.compile packingPipeline = .ok compiled ∧
      compiled.generate = .ok program ∧ program.main?.bind EmittedTables.read = some tables ∧
      (∃ entry ∈ tables.steps, entry.id = "build" ∧
        ∀ (host : ProgramHost) (duration : Duration) (world : World),
          (host.runStep entry duration world).2 = (host.workshop.perform buildStep.action
            (packingPipeline.environmentOf buildStep) world).world) ∧
      ∃ entry ∈ tables.steps, entry.id = "fetch" ∧
        ∀ (host : ProgramHost) (duration : Duration) (world : World),
          (host.runStep entry duration world).1.outcome = .failed ∧
            (host.runStep entry duration world).2 = world := by
  have accepted : ∃ compiled, CompiledPipeline.compile packingPipeline = .ok compiled ∧
      (ProgramTables.of compiled).values.isOk = true :=
    ⟨_, by cbv, by decide +kernel⟩
  obtain ⟨compiled, compiles, canWrite⟩ := accepted
  obtain ⟨program, generated⟩ := ProgramTables.exists_program canWrite
  obtain ⟨tables, read, _, entries⟩ := program_acts_as_recipes compiles generated
  obtain ⟨build, buildMember, buildId, builds⟩ := entries buildStep (by decide)
  obtain ⟨fetch, fetchMember, fetchId, fetches⟩ := entries fetchStep (by decide)
  refine ⟨compiled, program, tables, compiles, generated, read, ⟨build, buildMember, buildId, ?_⟩,
    fetch, fetchMember, fetchId, ?_⟩
  · exact fun host duration world => ((builds host duration world).1 rfl trivial).1
  · exact fun host duration world => ((fetches host duration world).2 rfl).2.2 rfl

def blankStep : Step := ⟨"blank", "blank", .shell " " none, [], {}, none⟩

def blankPipeline : Pipeline :=
  { name := "blank", description := "", steps := [blankStep], environment := {} }

def obligingHost : ProgramHost :=
  { machine := ⟨"/root", fun _ world => (.ok (.ofTexts "" "" (.exited 0)), world.files)⟩
    workspace := ⟨"/work"⟩
    toolchain := "zig"
    home := "/root" }

/-- A blank command is rejected by its recipe, but handed to a shell by the program. -/
theorem blank_command_started :
    ∃ compiled program tables entry, CompiledPipeline.compile blankPipeline = .ok compiled ∧
      compiled.generate = .ok program ∧ program.main?.bind EmittedTables.read = some tables ∧
      entry ∈ tables.steps ∧ entry.id = "blank" ∧
      (let performance := obligingHost.workshop.perform blankStep.action
        (blankPipeline.environmentOf blankStep) ⟨default, []⟩
      performance.result = .error (.failed (.missingParameter "command")) ∧
        performance.world.launches = []) ∧
      let (run, after) := obligingHost.runStep entry .zero ⟨default, []⟩
      run.outcome = .success ∧ after.launches = [⟨"sh", ["-c", " "], ⟨"/work"⟩, {}⟩] := by
  have accepted : ∃ compiled, CompiledPipeline.compile blankPipeline = .ok compiled ∧
      (ProgramTables.of compiled).values.isOk = true :=
    ⟨_, by cbv, by decide +kernel⟩
  obtain ⟨compiled, compiles, canWrite⟩ := accepted
  obtain ⟨program, generated⟩ := ProgramTables.exists_program canWrite
  obtain ⟨tables, read, _, entries⟩ := CompiledPipeline.generated_entries compiles generated
  have entry := (entries blankStep (by decide)).1
  exact ⟨compiled, program, tables, _, compiles, generated, read, entry, rfl, ⟨rfl, rfl⟩,
    by decide +kernel⟩

end PipelineWaves
