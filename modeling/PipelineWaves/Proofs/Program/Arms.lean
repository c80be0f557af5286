import PipelineWaves.Proofs.Program.Decoding

/-!
# The arms of conditions

The function of the conditions has one line for each arm: a position and the
expression that applies there. The expression stays in its line, as quoted texts do,
so the arms are read back line by line from the text of a program, behind its tables.
-/

set_option autoImplicit false

namespace PipelineWaves

open Template

theorem digits_in_line (value : Nat) : '\n' ∉ (toString value).toList :=
  fun inside => (TableReading.word_in_line (TableReading.digits_in_word value '\n' inside)).1 rfl

namespace ProgramExpression

theorem operand_in_line {context source : String} {operand : Operand}
    (written : operandText context operand = .ok source) : '\n' ∉ source.toList := by
  match operand with
  | .variable name =>
      obtain ⟨literal, quoted, same⟩ := except_bind_ok written
      cases same
      simpa [toString] using ProgramTables.quoted_in_line quoted
  | .literal text => exact ProgramTables.quoted_in_line written

theorem text_in_line {context source : String} {expression : ProgramExpression}
    (written : text context expression = .ok source) : '\n' ∉ source.toList := by
  induction expression generalizing source with
  | constant value =>
      cases written
      cases value <;> simp
  | truthy name =>
      obtain ⟨literal, quoted, same⟩ := except_bind_ok written
      cases same
      simpa [toString] using ProgramTables.quoted_in_line quoted
  | compare left how right =>
      obtain ⟨leftText, leftWritten, written⟩ := except_bind_ok written
      obtain ⟨rightText, rightWritten, written⟩ := except_bind_ok written
      cases written
      have sides := And.intro (operand_in_line leftWritten) (operand_in_line rightWritten)
      cases how <;> simpa [toString, comparisonText] using sides
  | outcomeIs index outcome =>
      cases written
      have digits := digits_in_line index
      cases outcome <;> simpa [toString, outcomeText] using digits
  | not inner induction =>
      obtain ⟨innerText, innerWritten, same⟩ := except_bind_ok written
      cases same
      have inLine := induction innerWritten
      cases inner.isEnclosed <;> simpa [toString] using inLine
  | and left right leftInduction rightInduction =>
      obtain ⟨leftText, leftWritten, written⟩ := except_bind_ok written
      obtain ⟨rightText, rightWritten, written⟩ := except_bind_ok written
      cases written
      simpa [toString] using And.intro (leftInduction leftWritten) (rightInduction rightWritten)
  | or left right leftInduction rightInduction =>
      obtain ⟨leftText, leftWritten, written⟩ := except_bind_ok written
      obtain ⟨rightText, rightWritten, written⟩ := except_bind_ok written
      cases written
      simpa [toString] using And.intro (leftInduction leftWritten) (rightInduction rightWritten)

end ProgramExpression

/-- Reads the line of an arm: a position, an arrow and an expression up to the last comma. -/
def readArm? (line : List Char) : Option (Nat × String) := do
  let arm ← line.dropPrefix? "        ".toList
  let index ← ExpressionToken.number? (arm.takeWhile Char.isDigit)
  let expression ← (arm.dropWhile Char.isDigit).dropPrefix? " => ".toList
  if expression.getLast? = some ',' then .some (index, String.ofList expression.dropLast) else none

def lastArm : String := "        _ => true,"

/-- Reads the arms up to the last one, which is for all other positions. Where there are no
arms before it, an empty line stands in their place. -/
def readArms : List (List Char) → Option (List (Nat × String))
  | [] => none
  | line :: rest =>
      if line = lastArm.toList then some []
      else if line = [] then readArms rest
      else do
        let arm ← readArm? line
        let arms ← readArms rest
        .some (arm :: arms)

theorem read_arm (index : Nat) (source : String) :
    readArm? (ProgramTables.armText (index, source)).toList = some (index, source) := by
  have line : (ProgramTables.armText (index, source)).toList =
      "        ".toList ++ (Nat.toDigits 10 index ++ (" => ".toList ++ (source.toList ++ [',']))) := by
    simp [ProgramTables.armText, toString]
  have digits := @ExpressionToken.to_digits_are_digits index
  have run : (Nat.toDigits 10 index ++ (" => ".toList ++ (source.toList ++ [',']))).takeWhile
      Char.isDigit = Nat.toDigits 10 index := by
    apply ProgramText.take_while_append digits
    intro character head
    cases head
    decide
  have behind : (Nat.toDigits 10 index ++ (" => ".toList ++ (source.toList ++ [',']))).dropWhile
      Char.isDigit = " => ".toList ++ (source.toList ++ [',']) := by
    rw [List.dropWhile_append_of_pos digits]
    rfl
  rw [readArm?, line, List.dropPrefix?_append_of_beq _ (beq_self_eq_true _)]
  simp only [Option.bind_eq_bind, Option.bind_some, run, behind, ExpressionToken.number_to_digits,
    List.dropPrefix?_append_of_beq _ (beq_self_eq_true _)]
  simp

theorem read_arms_of_lines {arms : List (Nat × String)}
    (inLine : ∀ arm ∈ arms, '\n' ∉ arm.2.toList) (after : List Char) :
    readArms (((terminated (arms.map ProgramTables.armText)).toList
      ++ (lastArm.toList ++ '\n' :: after)).splitOn '\n') = some arms := by
  induction arms with
  | nil =>
      have last : '\n' ∉ lastArm.toList := by decide
      have empty : (terminated ([].map ProgramTables.armText)).toList = [] := rfl
      rw [empty, List.nil_append, List.splitOn_append_cons_self_of_not_mem last, readArms,
        if_pos rfl]
  | cons arm arms induction =>
      obtain ⟨own, later⟩ := List.forall_mem_cons.1 inLine
      have read := read_arm arm.1 arm.2
      have line : '\n' ∉ (ProgramTables.armText arm).toList := by
        simpa [ProgramTables.armText, toString] using And.intro (digits_in_line arm.1) own
      have split : (terminated ((arm :: arms).map ProgramTables.armText)).toList
            ++ (lastArm.toList ++ '\n' :: after) =
          (ProgramTables.armText arm).toList ++ '\n' ::
            ((terminated (arms.map ProgramTables.armText)).toList
              ++ (lastArm.toList ++ '\n' :: after)) := by
        simp [terminated_cons]
      have notLast : (ProgramTables.armText arm).toList ≠ lastArm.toList := by
        intro same
        have none : readArm? lastArm.toList = none := by decide
        rw [same, none] at read
        cases read
      have notEmpty : (ProgramTables.armText arm).toList ≠ [] := by
        intro same
        rw [same] at read
        cases read
      rw [split, List.splitOn_append_cons_self_of_not_mem line, readArms, if_neg notLast,
        if_neg notEmpty, read, induction later]
      rfl

/-- Joined lines and a line end are lines that all end; no lines leave an empty one. -/
theorem intercalate_line_feed (lines : List String) :
    "\n".intercalate lines ++ "\n" = if lines = [] then "\n" else terminated lines := by
  induction lines with
  | nil => rfl
  | cons line lines induction =>
      rw [if_neg (List.cons_ne_nil line lines), terminated_cons]
      by_cases last : lines = []
      · subst last
        simp [terminated]
      · rw [if_neg last] at induction
        rw [String.intercalate_cons_of_ne_nil last, String.append_assoc, induction]

theorem read_arms {arms : List (Nat × String)} (inLine : ∀ arm ∈ arms, '\n' ∉ arm.2.toList)
    (after : String) :
    readArms (("\n".intercalate (arms.map ProgramTables.armText) ++ "\n"
      ++ terminated ProgramFragment.conditionTail ++ after).toList.splitOn '\n') = some arms := by
  have tail : (terminated ProgramFragment.conditionTail ++ after).toList =
      lastArm.toList ++ '\n' :: ("    \x7d\n\x7d\n" ++ after).toList := by
    simp [ProgramFragment.conditionTail, terminated, lastArm]
  have lines := read_arms_of_lines inLine ("    \x7d\n\x7d\n" ++ after).toList
  rw [String.append_assoc, intercalate_line_feed, String.toList_append, tail]
  by_cases empty : arms = []
  · subst empty
    have first : ("\n".toList ++ (lastArm.toList ++ '\n' :: ("    \x7d\n\x7d\n" ++ after).toList)) =
        [] ++ '\n' :: (lastArm.toList ++ '\n' :: ("    \x7d\n\x7d\n" ++ after).toList) := rfl
    rw [List.map_nil, if_pos rfl, first,
      List.splitOn_append_cons_self_of_not_mem List.not_mem_nil, readArms, if_neg (by decide),
      if_pos rfl]
    exact lines
  · rw [if_neg (by simpa using empty)]
    exact lines

/-- What the text of a program says about its steps and their conditions. -/
structure ScheduledProgram where
  tables : EmittedTables
  arms : List (Nat × String)
deriving DecidableEq, Repr

def armsOpening : String := "    match index \x7b\n"

def ScheduledProgram.read (source : String) : Option ScheduledProgram := do
  let (tables, rest) ← EmittedTables.readFront source.toList
  let rest ← behindDeclaration? armsOpening.toList true rest
  let arms ← readArms (rest.splitOn '\n')
  .some ⟨tables, arms⟩

theorem ScheduledProgram.read_of_parts {source : String} {tables : EmittedTables}
    {rest behind : List Char} {arms : List (Nat × String)}
    (front : EmittedTables.readFront source.toList = some (tables, rest))
    (found : behindDeclaration? armsOpening.toList true rest = some behind)
    (readBehind : readArms (behind.splitOn '\n') = some arms) :
    ScheduledProgram.read source = some ⟨tables, arms⟩ := by
  rw [ScheduledProgram.read, front]
  simp only [Option.bind_eq_bind, Option.bind_some, found, readBehind]

theorem skips_lines {declaration : List Char} {lines : List String}
    (each : ∀ line ∈ lines,
      differsFrom declaration (line.toList ++ ['\n']) = true ∧ '\n' ∉ line.toList) :
    Skips declaration (terminated lines).toList := by
  induction lines with
  | nil => exact fun _ => rfl
  | cons line lines induction =>
      obtain ⟨⟨differs, noBreak⟩, later⟩ := List.forall_mem_cons.1 each
      have whole := (Skips.line differs noBreak).append (induction later)
      simpa [terminated_cons] using whole

theorem skips_to_arms : Skips armsOpening.toList
    ("\n\n" ++ terminated (ProgramFragment.conditionHead.take 17)).toList := by
  have lines : ("\n\n" ++ terminated (ProgramFragment.conditionHead.take 17)).toList =
      (terminated ("" :: "" :: ProgramFragment.conditionHead.take 17)).toList := by
    simp [terminated_cons]
  have characters : armsOpening.toList =
      [' ', ' ', ' ', ' ', 'm', 'a', 't', 'c', 'h', ' ', 'i', 'n', 'd', 'e', 'x', ' ', '\x7b',
        '\n'] := by
    simp [armsOpening]
  rw [lines, characters]
  exact skips_lines (by decide +kernel)

/-- Reading the text of a program gives back its tables, the positions that have an arm and the
arm of each position. -/
theorem ProgramTables.read_program {tables : ProgramTables} {program : GeneratedProgram}
    (generated : tables.program = .ok program) :
    ∃ arms, program.main?.bind ScheduledProgram.read =
        some ⟨⟨tables.steps, tables.waves, tables.dependents⟩, arms⟩ ∧
      arms.map Prod.fst = (List.range tables.steps.length).filter
        (fun index => (tables.conditions.lookup index).isSome) ∧
      ∀ index step, tables.steps[index]? = some step →
        tables.IsArm step.id index (arms.lookup index) := by
  obtain ⟨values, written, main⟩ := values_of_program generated
  obtain ⟨texts, textsWritten, _⟩ := values_ok written
  obtain ⟨arms, sameTexts, areTexts, labels, atArms⟩ := arms_of_texts textsWritten
  obtain ⟨after, front⟩ := read_front_filled written textsWritten
  have inLine : ∀ arm ∈ arms, '\n' ∉ arm.2.toList := by
    intro arm member
    obtain ⟨_, _, textWritten⟩ := areTexts arm member
    exact ProgramExpression.text_in_line textWritten
  have head : terminated ProgramFragment.conditionHead =
      terminated (ProgramFragment.conditionHead.take 17) ++ armsOpening := by
    have last : armsOpening = terminated (ProgramFragment.conditionHead.drop 17) := by
      simp [armsOpening, ProgramFragment.conditionHead, terminated]
    rw [last, ← terminated_append, List.take_append_drop]
  have layout : ("\n\n" ++ terminated ProgramFragment.conditionHead
        ++ "\n".intercalate (texts.filterMap Prod.snd) ++ "\n"
        ++ terminated ProgramFragment.conditionTail ++ after).toList =
      ("\n\n" ++ terminated (ProgramFragment.conditionHead.take 17)).toList
        ++ (armsOpening.toList ++ ("\n".intercalate (arms.map armText) ++ "\n"
          ++ terminated ProgramFragment.conditionTail ++ after).toList) := by
    rw [head, sameTexts]
    simp only [String.toList_append, List.append_assoc]
  have found := skips_to_arms (armsOpening.toList
    ++ ("\n".intercalate (arms.map armText) ++ "\n"
      ++ terminated ProgramFragment.conditionTail ++ after).toList)
  rw [found_at_start (by decide)] at found
  rw [← List.range_eq_range'] at labels
  refine ⟨arms, ?_, labels,
    fun index step atIndex => atArms index step (Nat.zero_le index) atIndex⟩
  rw [layout] at front
  rw [main, Option.bind_some]
  exact ScheduledProgram.read_of_parts front found (read_arms inLine after)

end PipelineWaves
