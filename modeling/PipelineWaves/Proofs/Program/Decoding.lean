import PipelineWaves.Proofs.Graph.Plan
import PipelineWaves.Proofs.Program.Declaration

/-!
# Decoding programs

The tables of a generated program are read back from its text alone, for every
pipeline: the steps in the order of the plan, each with all that the program knows of
it, and the positions of waves and dependents. So no text of a pipeline ends its
literal or comment, and none is taken for a placeholder or for a declaration. Programs
with the same text have the same tables.
-/

set_option autoImplicit false

namespace PipelineWaves

open Template

namespace ProgramTables

theorem quoted_in_line {context text literal : String}
    (quoted : ProgramText.quote context text = .ok literal) : '\n' ∉ literal.toList := by
  intro inside
  rw [ProgramText.quote_ok quoted] at inside
  exact (ProgramText.literal_in_line text.toList '\n' inside).1 rfl

theorem values_in_line {tables : ProgramTables} {values : List (String × String)}
    (written : tables.values = .ok values) : ProgramFragment.HasInLineValues values := by
  obtain ⟨texts, name, toolchain, handler, application, _, nameQuoted, toolchainQuoted,
    handlerQuoted, applicationQuoted, rfl⟩ := values_written written
  intro key known
  simp only [ProgramFragment.introductionKeys, valueKeys, List.take_succ_cons, List.take_zero,
    List.mem_cons, List.not_mem_nil, or_false] at known
  rcases known with rfl | rfl | rfl | rfl | rfl
  · refine ⟨_, rfl, ?_⟩
    exact fun inside => (ProgramText.comment_in_line tables.pipelineName '\n' inside).1 rfl
  · exact ⟨_, rfl, quoted_in_line nameQuoted⟩
  · exact ⟨_, rfl, quoted_in_line toolchainQuoted⟩
  · exact ⟨_, rfl, quoted_in_line handlerQuoted⟩
  · exact ⟨_, rfl, quoted_in_line applicationQuoted⟩

/-- Reading the text of a program gives back its tables, and leaves the function of the
conditions unread. -/
theorem read_front_filled {tables : ProgramTables} {values : List (String × String)}
    {texts : List (String × Option String)} (written : tables.values = .ok values)
    (textsWritten : tables.allStepTexts tables.steps.zipIdx = .ok texts) :
    ∃ after, EmittedTables.readFront (filled values ProgramFragment.program).toList =
      some (⟨tables.steps, tables.waves, tables.dependents⟩,
        ("\n\n" ++ terminated ProgramFragment.conditionHead
          ++ "\n".intercalate (texts.filterMap Prod.snd) ++ "\n"
          ++ terminated ProgramFragment.conditionTail ++ after).toList) := by
  have inLine := values_in_line written
  obtain ⟨own, _, _, _, _, ownWritten, _, _, _, _, rfl⟩ := values_written written
  rw [textsWritten] at ownWritten
  cases ownWritten
  obtain ⟨before, after, skips, layout⟩ :=
    ProgramFragment.tables_in_filled inLine rfl rfl rfl rfl
  have skipsToWaves : Skips ProgramFragment.wavesDeclaration.toList
      "\n\n/// Step indices per wave\n".toList := fun _ => rfl
  have skipsToDependents : Skips ProgramFragment.dependentsDeclaration.toList
      "\n\n/// Transitive dependents of each step\n".toList := fun _ => rfl
  have steps := read_constant (by decide) skips (step_rows textsWritten)
    (TableTerm.list_of_items ProgramStep.of_term tables.steps)
  have waves := read_constant (by decide) skipsToWaves (position_rows tables.waves)
    (positions_of_rows tables.waves)
  have dependents := read_constant (by decide) skipsToDependents
    (position_rows tables.dependents) (positions_of_rows tables.dependents)
  refine ⟨after, ?_⟩
  rw [EmittedTables.readFront, layout, steps]
  simp only [Option.bind_eq_bind, Option.bind_some, waves, dependents]

theorem read_filled {tables : ProgramTables} {values : List (String × String)}
    (written : tables.values = .ok values) :
    EmittedTables.read (filled values ProgramFragment.program) =
      some ⟨tables.steps, tables.waves, tables.dependents⟩ := by
  obtain ⟨_, textsWritten, _⟩ := values_ok written
  obtain ⟨_, front⟩ := read_front_filled written textsWritten
  rw [EmittedTables.read, front, Option.map_some]

theorem same_tables_of_same_text {tables other : ProgramTables}
    {program otherProgram : GeneratedProgram} (generated : tables.program = .ok program)
    (otherGenerated : other.program = .ok otherProgram) (same : program.main? = otherProgram.main?) :
    tables.steps = other.steps ∧ tables.waves = other.waves ∧
      tables.dependents = other.dependents := by
  obtain ⟨values, written, main⟩ := values_of_program generated
  obtain ⟨otherValues, otherWritten, otherMain⟩ := values_of_program otherGenerated
  have sameText : filled values ProgramFragment.program =
      filled otherValues ProgramFragment.program :=
    Option.some.inj (main.symm.trans (same.trans otherMain))
  have read := read_filled written
  rw [sameText, read_filled otherWritten, Option.some.injEq, EmittedTables.mk.injEq] at read
  exact ⟨read.1.symm, read.2.1.symm, read.2.2.symm⟩

end ProgramTables

theorem CompiledPipeline.plan_steps_perm {compiled : CompiledPipeline}
    (plans : compiled.graph.Plans compiled.pipeline) :
    compiled.planSteps.Perm compiled.pipeline.steps := by
  have ids := plan_steps_ids plans
  have planDistinct : compiled.planSteps.Nodup := by
    apply List.Nodup.of_map Step.id
    rw [ids]
    exact plans.plan_ids_nodup
  have distinct : compiled.pipeline.steps.Nodup := List.Nodup.of_map Step.id plans.distinct
  rw [List.perm_ext_iff_of_nodup planDistinct distinct]
  intro step
  constructor
  · intro member
    obtain ⟨id, _, found⟩ := List.mem_filterMap.1 member
    exact List.mem_of_find?_eq_some found
  · intro member
    have planned := plans.mem_plan_ids.2 (List.mem_map_of_mem member)
    obtain ⟨index, _, atIndex⟩ := position_of_planned planned
    exact List.mem_of_getElem? (plan_steps_at plans member atIndex)

theorem CompiledPipeline.generated_tables {pipeline : Pipeline} {compiled : CompiledPipeline}
    {program : GeneratedProgram} (compiles : CompiledPipeline.compile pipeline = .ok compiled)
    (generated : compiled.generate = .ok program) :
    ∃ tables texts, program.main?.bind EmittedTables.read = some tables ∧
      (tables.steps.map ProgramStep.id).Nodup ∧
      tables.steps.Perm (pipeline.steps.map (ProgramStep.of pipeline)) ∧
      (ProgramTables.of compiled).allStepTexts tables.steps.zipIdx = .ok texts := by
  have plans := compile_plans compiles
  have samePipeline := (compile_parts compiles).1
  subst samePipeline
  obtain ⟨values, written, main⟩ := ProgramTables.values_of_program generated
  obtain ⟨texts, textsWritten, _⟩ := ProgramTables.values_ok written
  refine ⟨_, texts, by rw [main, Option.bind_some, ProgramTables.read_filled written], ?_,
    (plan_steps_perm plans).map _, textsWritten⟩
  show ((compiled.planSteps.map (ProgramStep.of compiled.pipeline)).map ProgramStep.id).Nodup
  rw [List.map_map, show ProgramStep.id ∘ ProgramStep.of compiled.pipeline = Step.id from rfl,
    plan_steps_ids plans]
  exact plans.plan_ids_nodup

/-- The text of a generated program is the template with one value for each of its
placeholders, and its tables are read back from that text. -/
theorem emitted_tables_read_back {pipeline : Pipeline} {compiled : CompiledPipeline}
    {program : GeneratedProgram} (compiles : CompiledPipeline.compile pipeline = .ok compiled)
    (generated : compiled.generate = .ok program) :
    (∃ values, program.main? = some (filled values ProgramFragment.program) ∧
      values.map Prod.fst = keysOf (segments ProgramFragment.program) ++ ["package_name"] ∧
      (values.map Prod.fst).Nodup) ∧
    program.main?.bind EmittedTables.read =
      some ⟨compiled.planSteps.map (ProgramStep.of pipeline), (ProgramTables.of compiled).waves,
        (ProgramTables.of compiled).dependents⟩ ∧
    compiled.planSteps.Perm pipeline.steps ∧
    compiled.planSteps.map Step.id = compiled.graph.planIds ∧
    ∀ step ∈ pipeline.steps, Ascending (ProgramStep.of pipeline step).environment := by
  have plans := CompiledPipeline.compile_plans compiles
  have samePipeline := (CompiledPipeline.compile_parts compiles).1
  subst samePipeline
  obtain ⟨values, written, main⟩ := ProgramTables.values_of_program generated
  refine ⟨⟨values, main, ?_, ?_⟩, ?_, CompiledPipeline.plan_steps_perm plans,
    CompiledPipeline.plan_steps_ids plans, ?_⟩
  · obtain ⟨_, _, keys, _⟩ := ProgramTables.values_ok written
    rw [keys, ProgramFragment.program_keys]
    rfl
  · obtain ⟨_, _, keys, _⟩ := ProgramTables.values_ok written
    rw [keys]
    decide
  · rw [main, Option.bind_some, ProgramTables.read_filled written]
    rfl
  · exact fun step _ => (compiled.pipeline.environmentOf step).ascending

/-- A pipeline full of texts that look like parts of a program. -/
def hostilePipeline : Pipeline :=
  { name := "x\nconst STEPS: &[Step] = &[];"
    description := ""
    steps :=
      [⟨"end\"\\", "a // b\n    Step \x7b id: \"c\" \x7d,",
          .shell "echo \"\x7b\x7b steps \x7d\x7d\"\n];" (some "// \u202e"), [], {}, none⟩,
        ⟨"load", "]\x7d;", .cache .restore "k\"" "a" (some "\\"), ["end\"\\"], {}, none⟩,
        ⟨"tell", "\x7b\x7b steps \x7d\x7d", .custom "mail" (Dictionary.ofList [("to", ")]")]),
          ["load"], {}, none⟩]
    environment := Dictionary.ofList [("\", \"", "\x7b\x7b waves \x7d\x7d\r\n")] }

def hostileTables : EmittedTables :=
  { steps :=
      [⟨"end\"\\", "a // b\n    Step \x7b id: \"c\" \x7d,",
          [("\", \"", "\x7b\x7b waves \x7d\x7d\r\n")],
          .shell "echo \"\x7b\x7b steps \x7d\x7d\"\n];" (some "// \u202e")⟩,
        ⟨"load", "]\x7d;", [("\", \"", "\x7b\x7b waves \x7d\x7d\r\n")],
          .cacheRestore "k\"" (some "\\")⟩,
        ⟨"tell", "\x7b\x7b steps \x7d\x7d", [("\", \"", "\x7b\x7b waves \x7d\x7d\r\n")],
          .custom "mail" [("to", ")]")]⟩]
    waves := [[0], [1], [2]]
    dependents := [[1, 2], [2], []] }

theorem hostile_pipeline_read_back :
    ∃ compiled program, CompiledPipeline.compile hostilePipeline = .ok compiled ∧
      compiled.generate = .ok program ∧
      program.main?.bind EmittedTables.read = some hostileTables := by
  have accepted : ∃ compiled, CompiledPipeline.compile hostilePipeline = .ok compiled ∧
      (ProgramTables.of compiled).values.isOk = true ∧
      EmittedTables.mk (compiled.planSteps.map (ProgramStep.of hostilePipeline))
        (ProgramTables.of compiled).waves (ProgramTables.of compiled).dependents =
          hostileTables :=
    ⟨_, by cbv, by decide +kernel, by cbv⟩
  obtain ⟨compiled, compiles, canWrite, tables⟩ := accepted
  obtain ⟨values, written⟩ := ProgramTables.values_of_is_ok canWrite
  have generated := ProgramTables.program_of_values written
  have read := (emitted_tables_read_back compiles generated).2.1
  rw [tables] at read
  exact ⟨compiled, _, compiles, generated, read⟩

end PipelineWaves
