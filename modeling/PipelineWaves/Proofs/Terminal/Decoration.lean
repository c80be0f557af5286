import Mathlib
import PipelineWaves.Proofs.Terminal.Listing

/-!
# Decoration

Styles are sequences of characters around a text that a terminal does not show. A reader
takes them out again: an escape character, a bracket, codes and a closing `m`. What is shown
with colours dresses what is shown without them when taking the sequences out gives it back,
whatever is written behind it; dressed texts may be put together in any way. Only the
column of outcomes is no decoration: it is filled up to its width with the sequences counted
as if they were shown, so that with colours nothing is filled up.
-/

set_option autoImplicit false

namespace PipelineWaves

namespace Terminal

/-- How many characters behind an escape character belong to a styling sequence. -/
def styleLength? : List Char → Option Nat
  | '[' :: rest =>
      let codes := rest.takeWhile fun character => character.isDigit || character = ';'
      if (rest.drop codes.length).head? = some 'm' then some (codes.length + 2) else none
  | _ => none

/-- The characters outside styling sequences, after skipping those that belong to one. -/
def unstyledFrom : Nat → List Char → List Char
  | _, [] => []
  | skipped + 1, _ :: rest => unstyledFrom skipped rest
  | 0, first :: rest =>
      if first = '\x1b' then
        match styleLength? rest with
        | some taken => unstyledFrom taken rest
        | none => first :: unstyledFrom 0 rest
      else first :: unstyledFrom 0 rest

/-- A text without its styling sequences. -/
def unstyled (text : String) : String := String.ofList (unstyledFrom 0 text.toList)

theorem unstyled_from_skipping (skipped rest : List Char) :
    unstyledFrom skipped.length (skipped ++ rest) = unstyledFrom 0 rest := by
  induction skipped with
  | nil => rfl
  | cons first skipped induction => rw [List.length_cons, List.cons_append, unstyledFrom, induction]

theorem unstyled_from_sequence {codes : List Char}
    (areCodes : ∀ code ∈ codes, (code.isDigit || code = ';') = true) (rest : List Char) :
    unstyledFrom 0 ('\x1b' :: '[' :: (codes ++ 'm' :: rest)) = unstyledFrom 0 rest := by
  have taken :
      (codes ++ 'm' :: rest).takeWhile (fun code => code.isDigit || code = ';') = codes := by
    rw [List.takeWhile_append_of_pos areCodes]
    simp
  have length : styleLength? ('[' :: (codes ++ 'm' :: rest)) = some (codes.length + 2) := by
    rw [styleLength?, taken, List.drop_left, List.head?_cons, if_pos rfl]
  have skipped := unstyled_from_skipping ('[' :: (codes ++ ['m'])) rest
  rw [unstyledFrom, if_pos rfl, length]
  simpa using skipped

def IsUnescaped (text : String) : Prop := '\x1b' ∉ text.toList

instance (text : String) : Decidable (IsUnescaped text) :=
  inferInstanceAs (Decidable ('\x1b' ∉ text.toList))

@[simp] theorem unescaped_append {left right : String} :
    IsUnescaped (left ++ right) ↔ IsUnescaped left ∧ IsUnescaped right := by
  simp [IsUnescaped]

@[simp] theorem unescaped_to_string {text : String} :
    IsUnescaped (toString text) ↔ IsUnescaped text := Iff.rfl

theorem unescaped_of_subset {text whole : String} (unescaped : IsUnescaped whole)
    (within : text.toList ⊆ whole.toList) : IsUnescaped text :=
  fun escape => unescaped (within escape)

@[simp] theorem number_unescaped (number : Nat) : IsUnescaped number.repr := by
  intro escape
  rw [Nat.repr, String.toList_ofList] at escape
  exact absurd (Nat.isDigit_of_mem_toDigits (by decide) (by decide) escape) (by decide)

theorem duration_unescaped (duration : Duration) : IsUnescaped duration.text := by
  have units : IsUnescaped "ms" ∧ IsUnescaped "." ∧ IsUnescaped "s" ∧ IsUnescaped "m " ∧
      IsUnescaped "h " ∧ IsUnescaped "" := by decide
  rw [Duration.text]
  split_ifs <;> simp [units]

theorem symbol_unescaped (terminal : Terminal) (symbol : Symbol) :
    IsUnescaped (terminal.symbol symbol) := by
  rw [Terminal.symbol]
  split <;> cases symbol <;> decide

/-- One text is another one with styling sequences in it, whatever is written behind both. -/
def Dresses (shown bare : String) : Prop :=
  ∀ rest, unstyledFrom 0 (shown.toList ++ rest) = bare.toList ++ unstyledFrom 0 rest

namespace Dresses

variable {shown bare otherShown otherBare : String}

theorem unstyled_eq (dresses : Dresses shown bare) : unstyled shown = bare := by
  have whole := dresses []
  rw [List.append_nil, unstyledFrom, List.append_nil] at whole
  rw [unstyled, whole, String.ofList_toList]

theorem of_unescaped {text : String} (unescaped : IsUnescaped text) : Dresses text text := by
  intro rest
  rw [IsUnescaped] at unescaped
  generalize text.toList = characters at unescaped ⊢
  induction characters with
  | nil => rfl
  | cons first others induction =>
      rw [List.mem_cons, not_or] at unescaped
      rw [List.cons_append, unstyledFrom, if_neg (Ne.symm unescaped.1), induction unescaped.2,
        List.cons_append]

theorem append (dresses : Dresses shown bare) (other : Dresses otherShown otherBare) :
    Dresses (shown ++ otherShown) (bare ++ otherBare) := by
  intro rest
  rw [String.toList_append, List.append_assoc, dresses, other, String.toList_append,
    List.append_assoc]

theorem intercalate {separator : String} (unescaped : IsUnescaped separator)
    {lines bareLines : List String} (dressed : List.Forall₂ Dresses lines bareLines) :
    Dresses (separator.intercalate lines) (separator.intercalate bareLines) := by
  induction dressed with
  | nil => exact of_unescaped (by simp [IsUnescaped])
  | cons first others induction =>
      cases others with
      | nil => simpa using first
      | cons second rest =>
          rw [String.intercalate_cons_cons, String.intercalate_cons_cons]
          exact (first.append (of_unescaped unescaped)).append induction

end Dresses

theorem unescaped_listed {texts : List String} (unescaped : ∀ text ∈ texts, IsUnescaped text) :
    IsUnescaped (listed texts) := by
  rw [listed]
  induction texts with
  | nil => simp [IsUnescaped]
  | cons first rest induction =>
      have others := induction fun text member => unescaped text (List.mem_cons_of_mem _ member)
      have own := unescaped first List.mem_cons_self
      cases rest with
      | nil => simpa using own
      | cons second rest =>
          rw [String.intercalate_cons_cons, unescaped_append, unescaped_append]
          exact ⟨⟨own, by decide⟩, others⟩

theorem within_line {line whole : List Char} (member : line ∈ Text.linesFrom [] whole) :
    line ⊆ whole := by
  have general : ∀ current : List Char, ∀ line ∈ Text.linesFrom current whole,
      line ⊆ current ++ whole := by
    clear member
    induction whole with
    | nil =>
        intro current line member
        rw [Text.linesFrom] at member
        split_ifs at member
        · cases member
        · rw [List.mem_singleton.1 member, List.append_nil]
          exact fun _ => List.mem_reverse.1
    | cons first rest induction =>
        intro current line member
        by_cases ends : first = '\n'
        · subst ends
          rw [Text.linesFrom] at member
          rcases List.mem_cons.1 member with rfl | later
          · rw [Text.withoutReturn]
            split
            · exact fun _ inLine => List.mem_append_left _
                (List.mem_reverse.1 (List.dropLast_subset _ inLine))
            · exact fun _ inLine => List.mem_append_left _ (List.mem_reverse.1 inLine)
          · intro character inLine
            have inRest : character ∈ rest := induction [] line later inLine
            exact List.mem_append_right _ (List.mem_cons_of_mem _ inRest)
        · rw [Text.linesFrom] at member
          · have within := induction (first :: current) line member
            intro character inLine
            simpa [or_left_comm] using within inLine
          · exact ends
  simpa using general [] line member

theorem lines_unescaped {text : String} (unescaped : IsUnescaped text) :
    ∀ line ∈ Text.lines text, IsUnescaped line := by
  intro line member
  obtain ⟨characters, inLines, rfl⟩ := List.mem_map.1 member
  apply unescaped_of_subset unescaped
  rw [String.toList_ofList]
  exact within_line inLines

theorem trimmed_unescaped {text : String} (unescaped : IsUnescaped text) :
    IsUnescaped (Text.trimTrailingBlank text) := by
  apply unescaped_of_subset unescaped
  rw [Text.trimTrailingBlank, String.toList_ofList, Text.dropTrailing]
  intro character member
  exact List.mem_reverse.1 ((List.dropWhile_sublist _).subset (List.mem_reverse.1 member))

def coloured (terminal : Terminal) : Terminal := { terminal with colours := true }

def uncoloured (terminal : Terminal) : Terminal := { terminal with colours := false }

section Shown

variable (terminal : Terminal)

theorem styled_dresses (style : Style) {text : String} (unescaped : IsUnescaped text) :
    Dresses (terminal.coloured.styled style text) (terminal.uncoloured.styled style text) := by
  intro rest
  have areCodes : ∀ code ∈ style.code.toList, (code.isDigit || code = ';') = true := by
    cases style <;> simp [Style.code]
  have opened := unstyled_from_sequence areCodes (text.toList ++ ("\x1b[0m".toList ++ rest))
  have isCode : ∀ code ∈ ['0'], (code.isDigit || code = ';') = true := by simp
  have closed := unstyled_from_sequence isCode rest
  have sequences : (terminal.coloured.styled style text).toList ++ rest =
      '\x1b' :: '[' ::
        (style.code.toList ++ 'm' :: (text.toList ++ ("\x1b[0m".toList ++ rest))) := by
    simp [styled, coloured]
  rw [sequences, opened, Dresses.of_unescaped unescaped]
  exact congrArg (text.toList ++ ·) closed

theorem symbol_dresses (symbol : Symbol) :
    Dresses (terminal.coloured.symbol symbol) (terminal.uncoloured.symbol symbol) :=
  Dresses.of_unescaped (terminal.coloured.symbol_unescaped symbol)

theorem status_dresses (status : RunStatus) :
    Dresses (terminal.coloured.status status) (terminal.uncoloured.status status) := by
  cases status <;> exact terminal.styled_dresses _ (by decide)

theorem outcome_dresses (outcome : StepOutcome) :
    Dresses (terminal.coloured.outcome outcome) (terminal.uncoloured.outcome outcome) := by
  cases outcome <;> exact terminal.styled_dresses _ (by decide)

theorem output_dresses {text : String} (unescaped : IsUnescaped text) (mostLines : Nat) :
    Dresses (terminal.coloured.output text mostLines)
      (terminal.uncoloured.output text mostLines) := by
  have separator : IsUnescaped ("\n" ++ indent) := by decide
  have joined : ∀ lines ⊆ Text.lines text,
      Dresses (("\n" ++ indent).intercalate lines) (("\n" ++ indent).intercalate lines) :=
    fun lines within => .intercalate separator <| List.forall₂_same.2 fun line member =>
      .of_unescaped (lines_unescaped unescaped line (within member))
  have indented : Dresses indent indent := .of_unescaped (by decide)
  rw [output, output]
  split
  · exact indented.append (joined _ fun _ => id)
  · refine (((indented.append (joined _ (List.take_subset _ _))).append
      (.of_unescaped separator)).append (terminal.styled_dresses .dim (by decide))).append ?_
    have words : IsUnescaped "... (" ∧ IsUnescaped " more lines)" := by decide
    exact .of_unescaped (by simp [words])

theorem error_output_dresses {stderr : String} (unescaped : IsUnescaped stderr) :
    Option.Rel Dresses (terminal.coloured.errorOutput? stderr)
      (terminal.uncoloured.errorOutput? stderr) := by
  rw [errorOutput?, errorOutput?]
  split
  · exact .none
  · exact .some (terminal.output_dresses (trimmed_unescaped unescaped) shownLines)

end Shown

end Terminal

/-- The texts of an event that it did not make up itself. -/
def RunEvent.ownTexts : RunEvent → List String
  | .runStarted identifier pipelineName _ _ => [identifier.short, pipelineName]
  | .waveStarted _ steps => steps
  | .stepStarted step => [step]
  | .stepSkipped step reason => [step, reason]
  | .stepSucceeded step _ => [step]
  | .stepFailed step error stderr => [step, error, stderr]
  | .waveCompleted _ => []
  | .runInterrupted _ => []
  | .runCompleted _ _ => []

def StepResult.ownTexts (result : StepResult) : List String :=
  [result.stepId, result.stdout, result.stderr] ++ result.detail.toList

def RunReport.ownTexts (report : RunReport) : List String :=
  report.pipelineName :: report.results.flatMap StepResult.ownTexts

namespace Terminal

section Shown

variable (terminal : Terminal)

theorem event_dresses {event : RunEvent} (unescaped : ∀ text ∈ event.ownTexts, IsUnescaped text) :
    Option.Rel Dresses (terminal.coloured.event? event) (terminal.uncoloured.event? event) := by
  have symbol := terminal.symbol_dresses
  have styled : ∀ style, ∀ text ∈ event.ownTexts, Dresses (terminal.coloured.styled style text)
      (terminal.uncoloured.styled style text) :=
    fun style text member => terminal.styled_dresses style (unescaped text member)
  have plain : ∀ {text}, IsUnescaped text → Dresses text text := Dresses.of_unescaped
  have blank : Dresses " " " " := plain (by decide)
  have words : IsUnescaped "): " ∧ IsUnescaped " steps in " ∧ IsUnescaped " waves" ∧
      IsUnescaped " Wave " ∧ IsUnescaped ": " ∧ IsUnescaped " (" ∧ IsUnescaped ")" ∧
      IsUnescaped " Interrupted; skipping " ∧ IsUnescaped " remaining step(s)" := by decide
  cases event with
  | runStarted identifier pipelineName steps waves =>
      have name := styled .bold pipelineName (by simp [RunEvent.ownTexts])
      have short := styled .dim identifier.short (by simp [RunEvent.ownTexts])
      refine .some (((((symbol .rocket).append (plain (by decide))).append name).append
        (plain words.2.2.2.2.2.1)).append short |>.append ?_)
      exact plain (by simp [words])
  | waveStarted index steps =>
      exact .some (((symbol .info).append (plain (by simp [words]))).append
        (terminal.styled_dresses .dim (unescaped_listed unescaped)))
  | stepStarted step =>
      exact .some (((symbol .spinner).append blank).append
        (styled .cyan step (by simp [RunEvent.ownTexts])))
  | stepSkipped step reason =>
      have given := unescaped reason (by simp [RunEvent.ownTexts])
      exact .some ((((symbol .skip).append blank).append
        (styled .dim step (by simp [RunEvent.ownTexts]))).append (plain (by simp [words, given])))
  | stepSucceeded step duration =>
      exact .some (((((symbol .check).append blank).append
        (styled .green step (by simp [RunEvent.ownTexts]))).append blank).append
        (terminal.styled_dresses .dim (duration_unescaped duration)))
  | stepFailed step error stderr =>
      have line := ((((symbol .cross).append blank).append
        (styled .red step (by simp [RunEvent.ownTexts]))).append (plain words.2.2.2.2.1)).append
        (styled .dim error (by simp [RunEvent.ownTexts]))
      have shown := terminal.error_output_dresses (unescaped stderr (by simp [RunEvent.ownTexts]))
      rw [event?, event?]
      generalize terminal.coloured.errorOutput? stderr = output at shown ⊢
      generalize terminal.uncoloured.errorOutput? stderr = bareOutput at shown ⊢
      cases shown with
      | none => exact .some line
      | some dressed => exact .some ((line.append (plain (by decide))).append dressed)
  | waveCompleted index => exact .none
  | runInterrupted remaining =>
      exact .some ((symbol .warning).append (plain (by simp [words])))
  | runCompleted identifier status =>
      exact .some (((symbol .info).append (plain (by decide))).append
        (terminal.status_dresses status))

theorem plan_dresses {graph : Graph} (unescaped : ∀ id ∈ graph.planIds, IsUnescaped id) :
    Dresses (terminal.coloured.plan graph) (terminal.uncoloured.plan graph) := by
  have words : IsUnescaped "  Wave " ∧ IsUnescaped ": " := by decide
  refine .intercalate (by decide) ?_
  rw [List.forall₂_map_left_iff, List.forall₂_map_right_iff, List.forall₂_same]
  intro entry member
  have isWave := List.fst_mem_of_mem_zipIdx member
  have listedUnescaped := unescaped_listed fun id inWave =>
    unescaped id (List.mem_flatten.2 ⟨entry.1, isWave, inWave⟩)
  exact (Dresses.of_unescaped (by simp [words])).append
    (terminal.styled_dresses .cyan listedUnescaped)

/-- The line for one step with a given text in the column of its outcome. -/
def resultLine (column : String) (result : StepResult) : String :=
  let line := "  " ++ Text.padTo 24 result.stepId ++ " " ++ column ++ " "
    ++ terminal.styled .dim result.duration.text
  match result.detail with
  | some detail => line ++ "  " ++ terminal.styled .dim detail
  | none => line

def resultLines (column : String) (result : StepResult) : List String :=
  match result.isFailed, terminal.errorOutput? result.stderr with
  | true, some shown => [terminal.resultLine column result, shown]
  | _, _ => [terminal.resultLine column result]

theorem result_lines (result : StepResult) :
    terminal.result result =
      terminal.resultLines (Text.padTo 8 (terminal.outcome result.outcome)) result := rfl

/-- A report with the given texts in the column of outcomes. -/
def columnReport (column : StepOutcome → String) (report : RunReport) : String :=
  "\n".intercalate (report.results.flatMap
      (fun result => terminal.resultLines (column result.outcome) result)
    ++ terminal.totals report
      :: terminal.failureLines report.failedSteps (listedSkips report))

theorem report_column (report : RunReport) :
    terminal.report report =
      terminal.columnReport (fun outcome => Text.padTo 8 (terminal.outcome outcome)) report :=
  terminal.report_lines report

/-- With its styling sequences an outcome is wider than its column. -/
theorem coloured_outcome_fills (outcome : StepOutcome) :
    Text.padTo 8 (terminal.coloured.outcome outcome) = terminal.coloured.outcome outcome := by
  have wide : 8 ≤ (terminal.coloured.outcome outcome).length := by
    cases outcome <;> simp [Terminal.outcome, styled, coloured, Style.code] <;> decide
  rw [Text.padTo, Nat.sub_eq_zero_of_le wide, List.replicate_zero, String.ofList_nil,
    String.append_empty]

variable {terminal}

theorem padded_unescaped {text : String} (unescaped : IsUnescaped text) (width : Nat) :
    IsUnescaped (Text.padTo width text) := by
  rw [Text.padTo, unescaped_append]
  refine ⟨unescaped, ?_⟩
  rw [IsUnescaped, String.toList_ofList]
  exact fun escape => absurd (List.eq_of_mem_replicate escape) (by decide)

section Result

variable {result : StepResult} (unescaped : ∀ text ∈ result.ownTexts, IsUnescaped text)
include unescaped

theorem result_line_dresses :
    Dresses (terminal.coloured.resultLine (terminal.coloured.outcome result.outcome) result)
      (terminal.uncoloured.resultLine (terminal.uncoloured.outcome result.outcome) result) := by
  have plain : ∀ {text}, IsUnescaped text → Dresses text text := Dresses.of_unescaped
  have blank : Dresses " " " " := plain (by decide)
  have id := padded_unescaped (unescaped result.stepId (by simp [StepResult.ownTexts])) 24
  have line := (((((plain (show IsUnescaped "  " by decide)).append (plain id)).append blank).append
    (terminal.outcome_dresses result.outcome)).append blank).append
    (terminal.styled_dresses .dim (duration_unescaped result.duration))
  rw [resultLine, resultLine]
  cases given : result.detail with
  | none => exact line
  | some detail =>
      have own := unescaped detail (by simp [StepResult.ownTexts, given])
      exact (line.append (plain (by decide))).append (terminal.styled_dresses .dim own)

theorem result_dresses :
    List.Forall₂ Dresses (terminal.coloured.result result)
      (terminal.uncoloured.resultLines (terminal.uncoloured.outcome result.outcome) result) := by
  have line := @result_line_dresses terminal result unescaped
  have shown := terminal.error_output_dresses
    (unescaped result.stderr (by simp [StepResult.ownTexts]))
  rw [result_lines, coloured_outcome_fills, resultLines, resultLines]
  generalize terminal.coloured.errorOutput? result.stderr = output at shown ⊢
  generalize terminal.uncoloured.errorOutput? result.stderr = bareOutput at shown ⊢
  cases result.isFailed with
  | false => exact .cons line .nil
  | true =>
      cases shown with
      | none => exact .cons line .nil
      | some dressed => exact .cons line (.cons dressed .nil)

end Result

section Report

variable {report : RunReport} (unescaped : ∀ text ∈ report.ownTexts, IsUnescaped text)
include unescaped

theorem results_unescaped {result : StepResult} (member : result ∈ report.results) :
    ∀ text ∈ result.ownTexts, IsUnescaped text :=
  fun text own => unescaped text
    (List.mem_cons_of_mem _ (List.mem_flatMap.2 ⟨result, member, own⟩))

theorem ids_unescaped {results : List StepResult} (within : results ⊆ report.results) :
    ∀ id ∈ results.map StepResult.stepId, IsUnescaped id := by
  intro id member
  obtain ⟨result, inResults, rfl⟩ := List.mem_map.1 member
  exact results_unescaped unescaped (within inResults) _ (by simp [StepResult.ownTexts])

omit unescaped in
theorem totals_dresses :
    Dresses (terminal.coloured.totals report) (terminal.uncoloured.totals report) := by
  have plain : ∀ {text}, IsUnescaped text → Dresses text text := Dresses.of_unescaped
  have count : ∀ style (steps : List String),
      Dresses (terminal.coloured.styled style (toString steps.length))
        (terminal.uncoloured.styled style (toString steps.length)) :=
    fun style steps => terminal.styled_dresses style (number_unescaped _)
  exact ((((((plain (show IsUnescaped "  " by decide)).append (count _ _)).append
    (plain (by decide))).append (count _ _)).append (plain (by decide))).append (count _ _)).append
    (plain (by decide))

theorem failure_lines_dress :
    List.Forall₂ Dresses
      (terminal.coloured.failureLines report.failedSteps (listedSkips report))
      (terminal.uncoloured.failureLines report.failedSteps (listedSkips report)) := by
  have plain : ∀ {text}, IsUnescaped text → Dresses text text := Dresses.of_unescaped
  have failed : IsUnescaped (listed report.failedSteps) :=
    unescaped_listed (ids_unescaped unescaped (List.filter_subset_self _))
  have skipped : IsUnescaped (listed (listedSkips report)) := by
    apply unescaped_listed
    rw [listedSkips]
    split
    · simp
    · exact ids_unescaped unescaped (List.filter_subset_self _)
  rw [failureLines, failureLines]
  refine List.rel_append ?_ ?_
  · split
    · exact .nil
    · exact .cons (((terminal.symbol_dresses .cross).append (plain (by decide))).append
        (terminal.styled_dresses .red failed)) .nil
  · split
    · exact .nil
    · exact .cons (((terminal.symbol_dresses .skip).append (plain (by decide))).append
        (terminal.styled_dresses .dim skipped)) .nil

theorem report_dresses :
    Dresses (terminal.coloured.report report)
      (terminal.uncoloured.columnReport terminal.uncoloured.outcome report) := by
  rw [report_lines, columnReport]
  refine .intercalate (by decide) (List.rel_append ?_ ?_)
  · have each := fun result (member : result ∈ report.results) =>
      @result_dresses terminal result (results_unescaped unescaped member)
    generalize report.results = results at each
    induction results with
    | nil => exact .nil
    | cons first rest induction =>
        exact List.rel_append (each first List.mem_cons_self)
          (induction fun result member => each result (List.mem_cons_of_mem _ member))
  · exact .cons totals_dresses (failure_lines_dress unescaped)

end Report

end Shown

/-- Taking the styles out gives what is shown without colours. Only in a report the column of
outcomes, which is filled up to eight characters without colours, is as narrow as the outcomes. -/
theorem styles_decorate_all_but_a_column (terminal : Terminal) :
    (∀ status, unstyled (terminal.coloured.status status) = terminal.uncoloured.status status) ∧
    (∀ outcome,
      unstyled (terminal.coloured.outcome outcome) = terminal.uncoloured.outcome outcome) ∧
    (∀ text, IsUnescaped text → ∀ mostLines,
      unstyled (terminal.coloured.output text mostLines) =
        terminal.uncoloured.output text mostLines) ∧
    (∀ event : RunEvent, (∀ text ∈ event.ownTexts, IsUnescaped text) →
      (terminal.coloured.event? event).map unstyled = terminal.uncoloured.event? event) ∧
    (∀ graph : Graph, (∀ id ∈ graph.planIds, IsUnescaped id) →
      unstyled (terminal.coloured.plan graph) = terminal.uncoloured.plan graph) ∧
    ∀ report : RunReport, (∀ text ∈ report.ownTexts, IsUnescaped text) →
      unstyled (terminal.coloured.report report) =
        terminal.uncoloured.columnReport terminal.uncoloured.outcome report ∧
      terminal.uncoloured.report report =
        terminal.uncoloured.columnReport
          (fun outcome => Text.padTo 8 (terminal.uncoloured.outcome outcome)) report := by
  refine ⟨fun status => (terminal.status_dresses status).unstyled_eq,
    fun outcome => (terminal.outcome_dresses outcome).unstyled_eq,
    fun text unescaped mostLines => (terminal.output_dresses unescaped mostLines).unstyled_eq,
    fun event unescaped => ?_, fun graph unescaped => (terminal.plan_dresses unescaped).unstyled_eq,
    fun report unescaped =>
      ⟨(report_dresses unescaped).unstyled_eq, terminal.uncoloured.report_column report⟩⟩
  have dressed := terminal.event_dresses unescaped
  generalize terminal.coloured.event? event = shown at dressed ⊢
  generalize terminal.uncoloured.event? event = bare at dressed ⊢
  cases dressed with
  | none => rfl
  | some dresses => exact congrArg some dresses.unstyled_eq

/-- A step that failed and one that was skipped because of it. -/
def failedReport : RunReport :=
  { RunReport.start .zero "ci" ⟨0, 0⟩ with
    results :=
      [{ StepResult.skipped "build" "process exited with code 2" with
          outcome := .failed, stderr := "error: missing semicolon\n" },
        .skipped "test" (SkipReason.dependencyFailed "build")] }

theorem failed_report_decorated :
    let terminal : Terminal := ⟨true, true⟩
    let event : RunEvent := .stepFailed "build" "process exited with code 2" "error:\n  [2m"
    (∀ text ∈ event.ownTexts, IsUnescaped text) ∧
      (terminal.coloured.event? event).map unstyled = terminal.uncoloured.event? event ∧
      (∀ text ∈ failedReport.ownTexts, IsUnescaped text) ∧
      unstyled (terminal.coloured.report failedReport) =
        terminal.uncoloured.columnReport terminal.uncoloured.outcome failedReport := by
  intro terminal event
  have inEvent : ∀ text ∈ event.ownTexts, IsUnescaped text := by decide
  have inReport : ∀ text ∈ failedReport.ownTexts, IsUnescaped text := by decide +kernel
  obtain ⟨_, _, _, events, _, reports⟩ := styles_decorate_all_but_a_column terminal
  exact ⟨inEvent, events event inEvent, inReport, (reports failedReport inReport).1⟩

/-- With colours the column of outcomes is narrower, so that more than styles differs. -/
theorem styles_narrow_outcome_column :
    let terminal : Terminal := ⟨true, true⟩
    (∀ text ∈ failedReport.ownTexts, IsUnescaped text) ∧
      unstyled (terminal.coloured.report failedReport) ≠
        terminal.uncoloured.report failedReport := by
  intro terminal
  have inReport : ∀ text ∈ failedReport.ownTexts, IsUnescaped text := by decide +kernel
  refine ⟨inReport, ?_⟩
  rw [(report_dresses inReport).unstyled_eq]
  decide +kernel

end Terminal

end PipelineWaves
