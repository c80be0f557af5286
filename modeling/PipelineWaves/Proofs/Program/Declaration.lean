import PipelineWaves.Proofs.Program.Generation
import PipelineWaves.Proofs.Program.StepTable

/-!
# The tables in the text of a program

Where the tables of a program stand and how they are found in its text alone. A table
is the value of a constant, and the declaration of a constant starts a line. No line
that holds text of a pipeline starts like one, and none reaches into the next line, so
the first line that starts like the declaration is the declaration.
-/

set_option autoImplicit false

namespace PipelineWaves

open TableReading

/-- What stands behind the first line start that reads `declaration`. -/
def behindDeclaration? (declaration : List Char) : Bool → List Char → Option (List Char)
  | _, [] => none
  | startsLine, first :: rest =>
      if startsLine && declaration.isPrefixOf (first :: rest) then
        some ((first :: rest).drop declaration.length)
      else behindDeclaration? declaration (first = '\n') rest

/-- The texts differ within their common length. -/
def differsFrom : List Char → List Char → Bool
  | first :: rest, other :: others => first ≠ other || differsFrom rest others
  | _, _ => false

theorem not_prefix_of_differs {declaration text : List Char}
    (differs : differsFrom declaration text = true) (rest : List Char) :
    declaration.isPrefixOf (text ++ rest) = false := by
  induction declaration generalizing text with
  | nil => cases differs
  | cons first declaration induction =>
      cases text with
      | nil => cases differs
      | cons other text =>
          rw [differsFrom, Bool.or_eq_true] at differs
          rw [List.cons_append, List.isPrefixOf, Bool.and_eq_false_iff]
          rcases differs with different | later
          · exact .inl (by simpa using different)
          · exact .inr (induction later)

/-- The declaration is not found in this text, which ends with a line. -/
def Skips (declaration text : List Char) : Prop :=
  ∀ rest, behindDeclaration? declaration true (text ++ rest) =
    behindDeclaration? declaration true rest

namespace Skips

variable {declaration : List Char}

theorem append {front back : List Char} (before : Skips declaration front)
    (after : Skips declaration back) : Skips declaration (front ++ back) := by
  intro rest
  rw [List.append_assoc, before, after]

theorem in_line {text : List Char} (noBreak : '\n' ∉ text) (rest : List Char) :
    behindDeclaration? declaration false (text ++ '\n' :: rest) =
      behindDeclaration? declaration true rest := by
  induction text with
  | nil => rfl
  | cons first text induction =>
      have other : first ≠ '\n' := fun same => noBreak (same ▸ List.mem_cons_self)
      have later : '\n' ∉ text := fun inside => noBreak (List.mem_cons_of_mem first inside)
      rw [List.cons_append, behindDeclaration?, Bool.false_and, if_neg Bool.false_ne_true]
      simpa [other] using induction later

theorem line {text : List Char} (differs : differsFrom declaration (text ++ ['\n']) = true)
    (noBreak : '\n' ∉ text) : Skips declaration (text ++ ['\n']) := by
  intro rest
  have absent := not_prefix_of_differs differs rest
  cases text with
  | nil =>
      rw [List.nil_append, List.singleton_append] at absent ⊢
      rw [behindDeclaration?, absent]
      rfl
  | cons first text =>
      have other : first ≠ '\n' := fun same => noBreak (same ▸ List.mem_cons_self)
      have later : '\n' ∉ text := fun inside => noBreak (List.mem_cons_of_mem first inside)
      rw [List.append_assoc, List.cons_append] at absent ⊢
      rw [behindDeclaration?, absent, Bool.and_false, if_neg Bool.false_ne_true]
      simpa [other] using in_line later rest

end Skips

theorem found_at_start {declaration : List Char} (nonempty : declaration ≠ []) (rest : List Char) :
    behindDeclaration? declaration true (declaration ++ rest) = some rest := by
  cases declaration with
  | nil => exact absurd rfl nonempty
  | cons first declaration =>
      have stands : (first :: declaration).isPrefixOf (first :: (declaration ++ rest)) = true := by
        simp [List.isPrefixOf_iff_prefix]
      rw [List.cons_append, behindDeclaration?, stands, Bool.and_self, if_pos rfl,
        ← List.cons_append, List.drop_left]

namespace ProgramFragment

open Template

/-- The values before the tables. -/
def introductionKeys : List String := ProgramTables.valueKeys.take 5

def introductionLines : List String := declarationLines.take 79

/-- The line does not start like the declaration, and it has at most one placeholder, for one
of the values before the tables. -/
def startsOtherwise (declaration characters : List Char) : Bool :=
  match holeOf (characters ++ ['\n']) with
  | none =>
      opensNowhere characters && !characters.contains '\n' &&
        differsFrom declaration (characters ++ ['\n'])
  | some (front, key, back) =>
      isSealed (characters ++ ['\n']) && opensNowhere back.dropLast && back.getLast? = some '\n' &&
        introductionKeys.contains key && !(front ++ back.dropLast).contains '\n' &&
        differsFrom declaration front

inductive AllStartOtherwise (declaration : List Char) : List String → Prop
  | nil : AllStartOtherwise declaration []
  | cons (characters : List Char) {lines : List String}
      (own : startsOtherwise declaration characters = true)
      (later : AllStartOtherwise declaration lines) :
      AllStartOtherwise declaration (String.ofList characters :: lines)

def stepsDeclaration : String := "const STEPS: &[Step] = "

theorem introduction_starts_otherwise :
    AllStartOtherwise stepsDeclaration.toList introductionLines := by
  have characters : stepsDeclaration.toList =
      ['c', 'o', 'n', 's', 't', ' ', 'S', 'T', 'E', 'P', 'S', ':', ' ', '&', '[', 'S', 't', 'e',
        'p', ']', ' ', '=', ' '] := by
    simp [stepsDeclaration]
  rw [characters]
  unfold introductionLines declarationLines
  repeat refine .cons _ (by decide +kernel) ?_
  exact .nil

/-- No value before the tables has a line end. -/
def HasInLineValues (values : List (String × String)) : Prop :=
  ∀ key ∈ introductionKeys, ∃ value, values.lookup key = some value ∧ '\n' ∉ value.toList

theorem differs_append {declaration front : List Char}
    (differs : differsFrom declaration front = true) (more : List Char) :
    differsFrom declaration (front ++ more) = true := by
  induction declaration generalizing front with
  | nil => cases differs
  | cons first declaration induction =>
      cases front with
      | nil => cases differs
      | cons other front =>
          rw [differsFrom, Bool.or_eq_true] at differs
          rw [List.cons_append, differsFrom, Bool.or_eq_true]
          exact differs.imp_right induction

theorem skips_filled_line {values : List (String × String)} {declaration characters : List Char}
    (inLine : HasInLineValues values) (own : startsOtherwise declaration characters = true) :
    isSealed (characters ++ ['\n']) = true ∧
      Skips declaration (filled values (String.ofList (characters ++ ['\n']))).toList := by
  rw [startsOtherwise] at own
  split at own
  · simp only [Bool.and_eq_true, Bool.not_eq_true', List.contains_eq_mem,
      decide_eq_false_iff_not] at own
    obtain ⟨⟨plain, noBreak⟩, differs⟩ := own
    obtain ⟨isClosed, noKeys⟩ := plain_line plain
    have unfilled : filled values (String.ofList (characters ++ ['\n'])) =
        String.ofList (characters ++ ['\n']) := by
      apply filled_plain
      rw [segments, String.toList_ofList, keys_of_segments, noKeys]
    rw [unfilled, String.toList_ofList]
    exact ⟨isClosed, Skips.line differs noBreak⟩
  · rename_i front key back split
    simp only [Bool.and_eq_true, Bool.not_eq_true', List.contains_eq_mem, decide_eq_true_eq,
      decide_eq_false_iff_not, List.mem_append, not_or] at own
    obtain ⟨⟨⟨⟨⟨isClosed, plain⟩, last⟩, known⟩, noBreak⟩, differs⟩ := own
    obtain ⟨value, found, valueInLine⟩ := inLine key known
    have ending : back = back.dropLast ++ ['\n'] := by
      obtain ⟨earlier, same⟩ := List.getLast?_eq_some_iff.1 last
      rw [same, List.dropLast_concat]
    have noMore : keysFrom 0 back = [] := by
      rw [ending]
      exact (plain_line plain).2
    have line : (filled values (String.ofList (characters ++ ['\n']))).toList =
        front ++ value.toList ++ back.dropLast ++ ['\n'] := by
      rw [filled_hole split noMore found, List.append_assoc _ back.dropLast, ← ending]
      simp
    refine ⟨isClosed, ?_⟩
    rw [line]
    apply Skips.line
    · simp only [List.append_assoc]
      exact differs_append differs _
    · simp [noBreak, valueInLine]

theorem skips_filled {values : List (String × String)} {declaration : List Char}
    {lines : List String} (inLine : HasInLineValues values)
    (each : AllStartOtherwise declaration lines) :
    isSealed (terminated lines).toList = true ∧
      Skips declaration (filled values (terminated lines)).toList := by
  induction each with
  | nil =>
      have empty : filled values (terminated []) = "" := by
        simp [terminated, filled, segments, segmentsOf]
      rw [empty]
      exact ⟨rfl, fun _ => rfl⟩
  | @cons characters lines own later induction =>
      obtain ⟨lineClosed, lineSkipped⟩ := skips_filled_line inLine own
      obtain ⟨laterClosed, laterSkipped⟩ := induction
      have line : (String.ofList (characters ++ ['\n'])).toList = characters ++ ['\n'] :=
        String.toList_ofList
      have split : terminated (String.ofList characters :: lines) =
          String.ofList (characters ++ ['\n']) ++ terminated lines := by
        rw [terminated_cons, String.ofList_append]
      constructor
      · rw [LineKeys.line_chars]
        exact sealed_append lineClosed laterClosed
      · rw [split, filled_append values (by rw [line]; exact lineClosed), String.toList_append]
        exact lineSkipped.append laterSkipped

def wavesDeclaration : String := "const WAVES: &[&[usize]] = "

def dependentsDeclaration : String := "const DEPENDENTS: &[&[usize]] = "

def stepsHead : List String := ["const STEPS: &[Step] = &["]

def wavesHead : List String :=
  ["];", "", "/// Step indices per wave", "const WAVES: &[&[usize]] = &["]

def dependentsHead : List String :=
  ["];", "", "/// Transitive dependents of each step", "const DEPENDENTS: &[&[usize]] = &["]

def behindTables : List String :=
  ["];", ""] ++ (conditionHead ++ (conditionHole :: (conditionTail ++ runtimeLines)))

theorem program_tables_eq :
    program = terminated (introductionLines ++ (stepsHead ++ ("\x7b\x7b steps \x7d\x7d" ::
      (wavesHead ++ ("\x7b\x7b waves \x7d\x7d" :: (dependentsHead ++
        ("\x7b\x7b dependents \x7d\x7d" :: behindTables))))))) := by
  have tables : tableLines = introductionLines ++ (stepsHead ++ ("\x7b\x7b steps \x7d\x7d" ::
      (wavesHead ++ ("\x7b\x7b waves \x7d\x7d" :: (dependentsHead ++
        ("\x7b\x7b dependents \x7d\x7d" :: ["];", ""])))))) := rfl
  rw [program_eq, tables]
  simp [behindTables]

/-- The three tables stand one behind the other, each as the value of its constant, and the
function of the conditions is next. -/
theorem tables_in_filled {values : List (String × String)}
    {steps waves dependents conditions : String} (inLine : HasInLineValues values)
    (hasSteps : values.lookup "steps" = some steps) (hasWaves : values.lookup "waves" = some waves)
    (hasDependents : values.lookup "dependents" = some dependents)
    (hasConditions : values.lookup "conditions" = some conditions) :
    ∃ before after, Skips stepsDeclaration.toList before ∧
      (filled values program).toList =
        before ++ stepsDeclaration.toList ++ ("&[\n" ++ steps ++ "\n];").toList
          ++ ("\n\n/// Step indices per wave\n".toList ++ wavesDeclaration.toList
            ++ ("&[\n" ++ waves ++ "\n];").toList
            ++ ("\n\n/// Transitive dependents of each step\n".toList
              ++ dependentsDeclaration.toList
              ++ ("&[\n" ++ dependents ++ "\n];").toList
              ++ ("\n\n" ++ terminated conditionHead ++ conditions ++ "\n"
                ++ terminated conditionTail ++ after).toList)) := by
  obtain ⟨introClosed, introSkipped⟩ := skips_filled inLine introduction_starts_otherwise
  have plainSteps : LineKeys stepsHead [] := by
    unfold stepsHead
    repeat refine .plain _ (by decide) ?_
    exact .nil
  have plainWaves : LineKeys wavesHead [] := by
    unfold wavesHead
    repeat refine .plain _ (by decide) ?_
    exact .nil
  have plainDependents : LineKeys dependentsHead [] := by
    unfold dependentsHead
    repeat refine .plain _ (by decide) ?_
    exact .nil
  have plainEnd : LineKeys ["];", ""] [] := by
    repeat refine .plain _ (by decide) ?_
    exact .nil
  refine ⟨_, filled values (terminated runtimeLines), introSkipped, ?_⟩
  rw [program_tables_eq, terminated_append, filled_append values introClosed,
    filled_plain_lines values plainSteps, filled_hole_alone (by decide) (by decide) hasSteps,
    filled_plain_lines values plainWaves, filled_hole_alone (by decide) (by decide) hasWaves,
    filled_plain_lines values plainDependents,
    filled_hole_alone (by decide) (by decide) hasDependents, behindTables,
    filled_plain_lines values plainEnd, filled_condition_function hasConditions]
  -- The condition lines stay folded: only the lines around the tables are taken apart.
  generalize terminated conditionHead = head
  generalize terminated conditionTail = tail
  simp [terminated, stepsHead, wavesHead, dependentsHead, stepsDeclaration, wavesDeclaration,
    dependentsDeclaration]

end ProgramFragment

/-- The value of a constant, and what follows its declaration. -/
def readConstant {Value : Type} (declaration : String) (meaning : TableTerm → Option Value)
    (source : List Char) : Option (Value × List Char) := do
  let value ← behindDeclaration? declaration.toList true source
  let (term, rest) ← TableTerm.read value
  .some (← meaning term, rest)

theorem read_constant {Value : Type} {declaration : String}
    {meaning : TableTerm → Option Value} {before : List Char} {texts : List String}
    {terms : List TableTerm} {value : Value} (nonempty : declaration.toList ≠ [])
    (skips : Skips declaration.toList before) (rows : List.Forall₂ TableTerm.IsRow texts terms)
    (means : meaning (.list terms) = some value) (rest : List Char) :
    readConstant declaration meaning (before ++ declaration.toList
      ++ ("&[\n" ++ "\n".intercalate texts ++ "\n];").toList ++ rest) = some (value, rest) := by
  have found := skips (declaration.toList
    ++ (("&[\n" ++ "\n".intercalate texts ++ "\n];").toList ++ rest))
  rw [found_at_start nonempty] at found
  rw [readConstant, List.append_assoc, List.append_assoc, found]
  simp only [Option.bind_eq_bind, Option.bind_some, TableTerm.read_rows rows, means]

/-- What a program holds of its steps apart from their conditions. -/
structure EmittedTables where
  steps : List ProgramStep
  waves : List (List Nat)
  dependents : List (List Nat)
deriving DecidableEq, Repr

namespace EmittedTables

def positions? : TableTerm → Option (List (List Nat)) :=
  TableTerm.list? (TableTerm.list? TableTerm.number?)

/-- The tables at the start of a text, and what follows them. -/
def readFront (source : List Char) : Option (EmittedTables × List Char) := do
  let (steps, rest) ← readConstant ProgramFragment.stepsDeclaration
    (TableTerm.list? ProgramStep.ofTerm?) source
  let (waves, rest) ← readConstant ProgramFragment.wavesDeclaration positions? rest
  let (dependents, rest) ← readConstant ProgramFragment.dependentsDeclaration positions? rest
  .some (⟨steps, waves, dependents⟩, rest)

def read (source : String) : Option EmittedTables :=
  (readFront source.toList).map Prod.fst

end EmittedTables

namespace ProgramTables

theorem step_rows {tables : ProgramTables} {steps : List ProgramStep} {start : Nat}
    {texts : List (String × Option String)}
    (written : tables.allStepTexts (steps.zipIdx start) = .ok texts) :
    List.Forall₂ TableTerm.IsRow (texts.map Prod.fst) (steps.map ProgramStep.term) := by
  induction steps generalizing start texts with
  | nil =>
      cases written
      exact .nil
  | cons step rest induction =>
      rw [List.zipIdx_cons] at written
      obtain ⟨own, ownWritten, written⟩ := except_bind_ok written
      obtain ⟨others, othersWritten, written⟩ := except_bind_ok written
      cases written
      exact .cons (ProgramStep.is_row_text (step_texts_ok ownWritten).1)
        (induction othersWritten)

theorem position_rows (rows : List (List Nat)) :
    List.Forall₂ TableTerm.IsRow (rows.map ProgramText.positions)
      (rows.map fun row => .list (row.map .number)) := by
  induction rows with
  | nil => exact .nil
  | cons row rest induction => exact .cons (is_row_positions row) induction

theorem positions_of_rows (rows : List (List Nat)) :
    EmittedTables.positions? (.list (rows.map fun row => .list (row.map .number))) = some rows := by
  have row : ∀ indices : List Nat,
      (TableTerm.list (indices.map .number)).list? TableTerm.number? = some indices :=
    TableTerm.list_of_items fun _ => rfl
  exact TableTerm.list_of_items row rows

end ProgramTables

end PipelineWaves
