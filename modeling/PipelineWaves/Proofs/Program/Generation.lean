import PipelineWaves.Program.Table
import PipelineWaves.Program.Written
import PipelineWaves.Proofs.Compilation
import PipelineWaves.Proofs.Program.Expression
import PipelineWaves.Proofs.Program.Fragment
import PipelineWaves.Proofs.Program.Index

/-!
# Generating programs

The tables of a program list the steps in the order of the plan. A step stands in
the tables at the position of its id in the plan, a condition at the position of
its step, and every step that a condition asks about has a position.

A program is generated exactly when its values can be written, and its text is the
fragment with every value in its place. The function of the conditions then has
one arm for every step with a condition, which holds the text of its expression.
-/

set_option autoImplicit false

namespace PipelineWaves

theorem get_cons_after {Item : Type} {first : Item} {rest : List Item} {start index : Nat}
    (after : start + 1 ≤ index) :
    (first :: rest)[index - start]? = rest[index - (start + 1)]? := by
  have next : index - start = (index - (start + 1)) + 1 := by omega
  rw [next, List.getElem?_cons_succ]

namespace ProgramTables

/-- Entries that are made for some positions are found at their positions. -/
theorem lookup_of_positions {Item Value : Type} (make : Item → Option Value) (items : List Item)
    (start index : Nat) :
    ((items.zipIdx start).filterMap fun entry => (make entry.1).map (entry.2, ·)).lookup index =
      if start ≤ index then (items[index - start]?).bind make else none := by
  induction items generalizing start with
  | nil => simp
  | cons item rest induction =>
      have later := induction (start + 1)
      rw [List.zipIdx_cons, List.filterMap_cons]
      by_cases here : start = index
      · subst here
        cases made : make item with
        | none => simp [later, made]
        | some value => simp [made]
      · have others : (if start ≤ index then ((item :: rest)[index - start]?).bind make else none) =
            if start + 1 ≤ index then (rest[index - (start + 1)]?).bind make else none := by
          by_cases after : start + 1 ≤ index
          · rw [if_pos (Nat.le_of_succ_le after), if_pos after, get_cons_after after]
          · rw [if_neg (by omega), if_neg after]
        rw [others, ← later]
        cases make item with
        | none => simp
        | some value => simp [lookup_cons_eq_if, Ne.symm here]

/-- A position has the expression of the condition of the step there, if there is one. -/
theorem conditions_lookup (compiled : CompiledPipeline) (index : Nat) :
    (of compiled).conditions.lookup index = (compiled.planSteps[index]?).bind fun step =>
      (compiled.condition? step.id).map (.of (indexOf compiled.planSteps).get?) := by
  have found := lookup_of_positions
    (fun step : Step => (compiled.condition? step.id).map
      (ProgramExpression.of (indexOf compiled.planSteps).get?))
    compiled.planSteps 0 index
  rw [if_pos (Nat.zero_le index), Nat.sub_zero] at found
  rw [← found, of]
  simp only [conditionAt, Option.map_map]
  rfl

theorem condition_at {compiled : CompiledPipeline} {step : Step} {index : Nat}
    (atIndex : compiled.planSteps[index]? = some step) :
    (of compiled).conditions.lookup index =
      (compiled.condition? step.id).map (.of (indexOf compiled.planSteps).get?) := by
  rw [conditions_lookup, atIndex, Option.bind_some]

def valueKeys : List String :=
  ["pipeline_comment", "pipeline_name", "default_toolchain", "handler_prefix", "app_name",
    "steps", "waves", "dependents", "conditions", "package_name"]

/-- The values of a program: the texts of its steps and five single texts. -/
theorem values_written {tables : ProgramTables} {values : List (String × String)}
    (written : tables.values = .ok values) :
    ∃ texts name toolchain handler application,
      tables.allStepTexts tables.steps.zipIdx = .ok texts ∧
      ProgramText.quote "name" tables.pipelineName = .ok name ∧
      ProgramText.quote "toolchain" RecipeSettings.standard.toolchain = .ok toolchain ∧
      ProgramText.quote "handler prefix" handlerPrefix = .ok handler ∧
      ProgramText.quote "app name" applicationName = .ok application ∧
      values =
        [("pipeline_comment", ProgramText.comment tables.pipelineName),
          ("pipeline_name", name),
          ("default_toolchain", toolchain),
          ("handler_prefix", handler),
          ("app_name", application),
          ("steps", "\n".intercalate (texts.map Prod.fst)),
          ("waves", "\n".intercalate (tables.waves.map ProgramText.positions)),
          ("dependents", "\n".intercalate (tables.dependents.map ProgramText.positions)),
          ("conditions", "\n".intercalate (texts.filterMap Prod.snd)),
          ("package_name", PackageName.of tables.pipelineName)] := by
  obtain ⟨texts, textsWritten, written⟩ := except_bind_ok written
  obtain ⟨name, nameQuoted, written⟩ := except_bind_ok written
  obtain ⟨toolchain, toolchainQuoted, written⟩ := except_bind_ok written
  obtain ⟨handler, handlerQuoted, written⟩ := except_bind_ok written
  obtain ⟨application, applicationQuoted, written⟩ := except_bind_ok written
  cases written
  exact ⟨texts, name, toolchain, handler, application, textsWritten, nameQuoted, toolchainQuoted,
    handlerQuoted, applicationQuoted, rfl⟩

theorem values_ok {tables : ProgramTables} {values : List (String × String)}
    (written : tables.values = .ok values) :
    ∃ texts, tables.allStepTexts tables.steps.zipIdx = .ok texts ∧
      values.map Prod.fst = valueKeys ∧
      values.lookup "conditions" = some ("\n".intercalate (texts.filterMap Prod.snd)) := by
  obtain ⟨texts, _, _, _, _, textsWritten, _, _, _, _, rfl⟩ := values_written written
  exact ⟨texts, textsWritten, rfl, rfl⟩

theorem lookup_value {values : List (String × String)} (keys : values.map Prod.fst = valueKeys)
    {key : String} (member : key ∈ valueKeys) : values.lookup key ≠ none := by
  intro absent
  rw [← keys] at member
  obtain ⟨entry, present, same⟩ := List.mem_map.1 member
  have differs := List.lookup_eq_none_iff.1 absent entry present
  simp [same] at differs

theorem render_program {values : List (String × String)}
    (keys : values.map Prod.fst = valueKeys) :
    ProgramFragment.render ProgramFragment.programName values =
      .ok (Template.filled values ProgramFragment.program) := by
  rw [ProgramFragment.render, ProgramFragment.named, if_pos rfl, Except.bind]
  apply Template.render_ok
  intro key member
  rw [ProgramFragment.program_keys] at member
  exact lookup_value keys (List.mem_append_left ["package_name"] member)

theorem render_manifest {values : List (String × String)}
    (keys : values.map Prod.fst = valueKeys) :
    ProgramFragment.render ProgramFragment.manifestName values =
      .ok (Template.filled values ProgramFragment.manifest) := by
  have otherName : ProgramFragment.manifestName ≠ ProgramFragment.programName := by
    simp [ProgramFragment.manifestName, ProgramFragment.programName]
  rw [ProgramFragment.render, ProgramFragment.named, if_neg otherName, if_pos rfl, Except.bind]
  apply Template.render_ok
  intro key member
  rw [ProgramFragment.manifest_keys] at member
  apply lookup_value keys
  simp only [List.mem_cons, List.not_mem_nil, or_false] at member
  rcases member with same | same | same <;> simp [same, valueKeys]

theorem program_of_values {tables : ProgramTables} {values : List (String × String)}
    (written : tables.values = .ok values) :
    tables.program = .ok ⟨PackageName.of tables.pipelineName,
      [⟨GeneratedProgram.manifestPath, Template.filled values ProgramFragment.manifest⟩,
        ⟨GeneratedProgram.mainPath, Template.filled values ProgramFragment.program⟩]⟩ := by
  obtain ⟨_, _, keys, _⟩ := values_ok written
  rw [program, written, except_ok_bind, render_manifest keys, except_ok_bind, render_program keys,
    except_ok_bind]

theorem main_of_files (packageName manifest main : String) :
    GeneratedProgram.main? ⟨packageName, [⟨GeneratedProgram.manifestPath, manifest⟩,
      ⟨GeneratedProgram.mainPath, main⟩]⟩ = some main := by
  have other : GeneratedProgram.manifestPath.sameAs GeneratedProgram.mainPath = false := by decide
  have same : GeneratedProgram.mainPath.sameAs GeneratedProgram.mainPath = true := by
    simp [FilePath.sameAs]
  simp [GeneratedProgram.main?, GeneratedProgram.file?, other, same]

theorem values_of_program {tables : ProgramTables} {program : GeneratedProgram}
    (generated : tables.program = .ok program) :
    ∃ values, tables.values = .ok values ∧
      program.main? = some (Template.filled values ProgramFragment.program) := by
  obtain ⟨values, written, _⟩ := except_bind_ok generated
  rw [program_of_values written] at generated
  cases generated
  exact ⟨values, written, main_of_files _ _ _⟩

theorem values_of_is_ok {tables : ProgramTables} (canWrite : tables.values.isOk = true) :
    ∃ values, tables.values = .ok values := by
  cases written : tables.values with
  | error failure =>
      rw [written] at canWrite
      cases canWrite
  | ok values => exact ⟨values, rfl⟩

theorem exists_program {tables : ProgramTables} (canWrite : tables.values.isOk = true) :
    ∃ program, tables.program = .ok program := by
  obtain ⟨values, written⟩ := values_of_is_ok canWrite
  exact ⟨_, program_of_values written⟩

/-- The line of an arm: a position and the expression for the step there. -/
def armText (arm : Nat × String) : String := s!"        {arm.1} => {arm.2},"

/-- The arm of a position: none without a condition, and else the text of its expression. -/
def IsArm (tables : ProgramTables) (stepId : String) (index : Nat) (arm : Option String) : Prop :=
  match tables.conditions.lookup index with
  | none => arm = none
  | some expression => ∃ source,
      expression.text ("steps." ++ stepId ++ ".condition") = .ok source ∧ arm = some source

theorem text_of_arm {tables : ProgramTables} {stepId source : String} {index : Nat}
    (isArm : tables.IsArm stepId index (some source)) :
    ∃ context expression, ProgramExpression.text context expression = .ok source := by
  rw [IsArm] at isArm
  split at isArm
  · cases isArm
  · obtain ⟨_, written, same⟩ := isArm
    cases same
    exact ⟨_, _, written⟩

theorem step_texts_ok {tables : ProgramTables} {step : ProgramStep} {index : Nat}
    {texts : String × Option String} (written : tables.stepTexts (step, index) = .ok texts) :
    step.text index = .ok texts.1 ∧ ∃ arm : Option String,
      texts.2 = arm.map (fun source => armText (index, source)) ∧
        tables.IsArm step.id index arm := by
  obtain ⟨entry, entryWritten, written⟩ := except_bind_ok written
  cases found : tables.conditions.lookup index with
  | none =>
      simp only [found] at written
      cases written
      refine ⟨entryWritten, none, rfl, ?_⟩
      rw [IsArm, found]
  | some expression =>
      simp only [found] at written
      obtain ⟨source, expressionWritten, written⟩ := except_bind_ok written
      cases written
      refine ⟨entryWritten, some source, rfl, ?_⟩
      rw [IsArm, found]
      exact ⟨source, expressionWritten, rfl⟩

theorem IsArm.is_some_iff {tables : ProgramTables} {stepId : String} {index : Nat}
    {arm : Option String} (isArm : tables.IsArm stepId index arm) :
    arm.isSome = (tables.conditions.lookup index).isSome := by
  rw [IsArm] at isArm
  split at isArm
  · rename_i noCondition
    rw [isArm, noCondition]
    rfl
  · rename_i expression found
    obtain ⟨source, _, rfl⟩ := isArm
    rw [found]
    rfl

theorem lookup_outside_labels {arms : List (Nat × String)} {index : Nat}
    (outside : index ∉ arms.map Prod.fst) : arms.lookup index = none := by
  rw [List.lookup_eq_none_iff]
  intro arm member
  simpa using fun same : index = arm.1 => outside (same ▸ List.mem_map_of_mem member)

/-- Each position with a condition labels one arm, which is the arm of its step, and the arms
stand in the order of the positions. -/
theorem arms_of_texts {tables : ProgramTables} {steps : List ProgramStep} {start : Nat}
    {texts : List (String × Option String)}
    (written : tables.allStepTexts (steps.zipIdx start) = .ok texts) :
    ∃ arms : List (Nat × String), texts.filterMap Prod.snd = arms.map armText ∧
      (∀ arm ∈ arms, ∃ context expression, ProgramExpression.text context expression = .ok arm.2) ∧
      arms.map Prod.fst = (List.range' start steps.length).filter
        (fun index => (tables.conditions.lookup index).isSome) ∧
      ∀ index step, start ≤ index → steps[index - start]? = some step →
        tables.IsArm step.id index (arms.lookup index) := by
  induction steps generalizing start texts with
  | nil =>
      cases written
      refine ⟨[], rfl, ?_, rfl, fun index step _ atIndex => by simp at atIndex⟩
      exact fun arm member => absurd member List.not_mem_nil
  | cons first rest induction =>
      rw [List.zipIdx_cons] at written
      obtain ⟨own, ownWritten, written⟩ := except_bind_ok written
      obtain ⟨others, othersWritten, written⟩ := except_bind_ok written
      cases written
      obtain ⟨_, arm, ownText, ownArm⟩ := step_texts_ok ownWritten
      obtain ⟨arms, sameTexts, areTexts, labels, laterArms⟩ := induction othersWritten
      have notOwn : ∀ index, index ≠ start → (arm.map (start, ·)).toList.lookup index = none := by
        intro index other
        cases arm <;> simp [lookup_cons_eq_if, other]
      have noneAtStart : arms.lookup start = none := by
        apply lookup_outside_labels
        rw [labels]
        simp
      refine ⟨(arm.map (start, ·)).toList ++ arms, ?_, ?_, ?_, ?_⟩
      · rw [List.filterMap_cons, ownText, sameTexts]
        cases arm <;> rfl
      · intro other member
        rcases List.mem_append.1 member with own | later
        · obtain ⟨source, rfl, rfl⟩ : ∃ source, arm = some source ∧ other = (start, source) := by
            simpa [eq_comm] using own
          exact text_of_arm ownArm
        · exact areTexts other later
      · rw [List.map_append, labels, List.length_cons, List.range'_succ, List.filter_cons,
          ← ownArm.is_some_iff]
        cases arm <;> rfl
      · intro index step after atIndex
        rw [List.lookup_append]
        by_cases here : index = start
        · subst here
          rw [Nat.sub_self, List.getElem?_cons_zero] at atIndex
          cases atIndex
          rw [noneAtStart]
          cases arm <;> simpa using ownArm
        · have later : start + 1 ≤ index := by omega
          rw [get_cons_after later] at atIndex
          rw [notOwn index here, Option.none_or]
          exact laterArms index step later atIndex

end ProgramTables

end PipelineWaves
