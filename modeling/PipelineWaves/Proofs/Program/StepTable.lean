import PipelineWaves.Proofs.Program.TableText

/-!
# The tables of steps and positions

What the rows of the tables of a program say. A row of the steps is a comment, which
the reader passes over, and a structure with the id, the name, the environment and
the action of a step. Taking the meaning of what is read gives back the step.
-/

set_option autoImplicit false

namespace PipelineWaves

open TableReading ProgramText

open TableTerm (ofOption ofPair shows_quoted shows_option shows_each shows_pairs shows_listed
  shows_braced Shows IsRow)

namespace ProgramAction

/-- The structure that the text of an action has. -/
def term : ProgramAction → TableTerm
  | shell command directory =>
      .record ["Action", "Shell"] [("command", .text command), ("working_dir", ofOption directory)]
  | compile sourceFile outputName optimize =>
      .record ["Action", "Compile"]
        [("source_file", .text sourceFile), ("output_name", .text outputName),
          ("optimize", .text optimize)]
  | testRun testFile filter =>
      .record ["Action", "TestRun"] [("test_file", .text testFile), ("filter", ofOption filter)]
  | checkout repository branch path =>
      .record ["Action", "Checkout"]
        [("repository", .text repository), ("branch", .text branch), ("path", .text path)]
  | artifact sourcePath destination =>
      .record ["Action", "Artifact"]
        [("source_path", .text sourcePath), ("destination", .text destination)]
  | cacheSave key paths directory =>
      .record ["Action", "CacheSave"]
        [("key", .text key), ("paths", .list (paths.map .text)),
          ("cache_dir", ofOption directory)]
  | cacheRestore key directory =>
      .record ["Action", "CacheRestore"] [("key", .text key), ("cache_dir", ofOption directory)]
  | custom typeName parameters =>
      .record ["Action", "Custom"]
        [("type_name", .text typeName), ("parameters", .list (parameters.map ofPair))]

theorem shows_text {stepId written : String} {action : ProgramAction}
    (writes : action.text stepId = .ok written) : Shows written action.term := by
  cases action with
  | shell command directory =>
      obtain ⟨command, commandQuoted, writes⟩ := except_bind_ok writes
      obtain ⟨directory, directoryQuoted, writes⟩ := except_bind_ok writes
      cases writes
      exact shows_braced (fun _ _ => rfl)
        ⟨"command", _, _, by decide, shows_quoted commandQuoted⟩
        [⟨"working_dir", _, _, by decide, shows_option directoryQuoted⟩]
        (by simp [toString, TableTerm.ShownField.text, ← String.toList_inj])
  | compile sourceFile outputName optimize =>
      obtain ⟨sourceFile, sourceQuoted, writes⟩ := except_bind_ok writes
      obtain ⟨outputName, outputQuoted, writes⟩ := except_bind_ok writes
      obtain ⟨optimize, optimizeQuoted, writes⟩ := except_bind_ok writes
      cases writes
      exact shows_braced (fun _ _ => rfl)
        ⟨"source_file", _, _, by decide, shows_quoted sourceQuoted⟩
        [⟨"output_name", _, _, by decide, shows_quoted outputQuoted⟩,
          ⟨"optimize", _, _, by decide, shows_quoted optimizeQuoted⟩]
        (by simp [toString, TableTerm.ShownField.text, ← String.toList_inj])
  | testRun testFile filter =>
      obtain ⟨testFile, fileQuoted, writes⟩ := except_bind_ok writes
      obtain ⟨filter, filterQuoted, writes⟩ := except_bind_ok writes
      cases writes
      exact shows_braced (fun _ _ => rfl)
        ⟨"test_file", _, _, by decide, shows_quoted fileQuoted⟩
        [⟨"filter", _, _, by decide, shows_option filterQuoted⟩]
        (by simp [toString, TableTerm.ShownField.text, ← String.toList_inj])
  | checkout repository branch path =>
      obtain ⟨repository, repositoryQuoted, writes⟩ := except_bind_ok writes
      obtain ⟨branch, branchQuoted, writes⟩ := except_bind_ok writes
      obtain ⟨path, pathQuoted, writes⟩ := except_bind_ok writes
      cases writes
      exact shows_braced (fun _ _ => rfl)
        ⟨"repository", _, _, by decide, shows_quoted repositoryQuoted⟩
        [⟨"branch", _, _, by decide, shows_quoted branchQuoted⟩,
          ⟨"path", _, _, by decide, shows_quoted pathQuoted⟩]
        (by simp [toString, TableTerm.ShownField.text, ← String.toList_inj])
  | artifact sourcePath destination =>
      obtain ⟨sourcePath, sourceQuoted, writes⟩ := except_bind_ok writes
      obtain ⟨destination, destinationQuoted, writes⟩ := except_bind_ok writes
      cases writes
      exact shows_braced (fun _ _ => rfl)
        ⟨"source_path", _, _, by decide, shows_quoted sourceQuoted⟩
        [⟨"destination", _, _, by decide, shows_quoted destinationQuoted⟩]
        (by simp [toString, TableTerm.ShownField.text, ← String.toList_inj])
  | cacheSave key paths directory =>
      obtain ⟨paths, pathsQuoted, writes⟩ := except_bind_ok writes
      obtain ⟨key, keyQuoted, writes⟩ := except_bind_ok writes
      obtain ⟨directory, directoryQuoted, writes⟩ := except_bind_ok writes
      cases writes
      exact shows_braced (fun _ _ => rfl)
        ⟨"key", _, _, by decide, shows_quoted keyQuoted⟩
        [⟨"paths", _, _, by decide, shows_listed (shows_each pathsQuoted)⟩,
          ⟨"cache_dir", _, _, by decide, shows_option directoryQuoted⟩]
        (by simp [toString, TableTerm.ShownField.text, ← String.toList_inj])
  | cacheRestore key directory =>
      obtain ⟨key, keyQuoted, writes⟩ := except_bind_ok writes
      obtain ⟨directory, directoryQuoted, writes⟩ := except_bind_ok writes
      cases writes
      exact shows_braced (fun _ _ => rfl)
        ⟨"key", _, _, by decide, shows_quoted keyQuoted⟩
        [⟨"cache_dir", _, _, by decide, shows_option directoryQuoted⟩]
        (by simp [toString, TableTerm.ShownField.text, ← String.toList_inj])
  | custom typeName parameters =>
      obtain ⟨pairs, pairsQuoted, writes⟩ := except_bind_ok writes
      obtain ⟨typeName, nameQuoted, writes⟩ := except_bind_ok writes
      cases writes
      exact shows_braced (fun _ _ => rfl)
        ⟨"type_name", _, _, by decide, shows_quoted nameQuoted⟩
        [⟨"parameters", _, _, by decide, shows_listed (shows_pairs pairsQuoted)⟩]
        (by simp [toString, TableTerm.ShownField.text, ← String.toList_inj])

end ProgramAction

namespace ProgramStep

def term (step : ProgramStep) : TableTerm :=
  .record ["Step"]
    [("id", .text step.id), ("name", .text step.name),
      ("env", .list (step.environment.map ofPair)), ("action", step.action.term)]

/-- The comment above a step holds one line, whatever its name. -/
theorem passes_step_comment (index : Nat) (name : String) (reading : TableReading) :
    Passes (s!"    // {index}: " ++ comment name ++ "\n").toList reading reading := by
  have inLine : ∀ character ∈ (toString index ++ ": " ++ comment name).toList,
      IsInLine character := by
    intro character member
    simp only [String.toList_append, List.mem_append] at member
    rcases member with (digit | colon) | inName
    · exact word_in_line (digits_in_word index character digit)
    · have symbols : character = ':' ∨ character = ' ' := by simpa using colon
      rcases symbols with rfl | rfl
      · exact ⟨by decide, by decide⟩
      · exact ⟨by decide, by decide⟩
    · exact comment_in_line name character inName
  have indent : Passes "    ".toList reading reading := fun _ => rfl
  have whole := indent.trans (passes_comment inLine reading)
  simpa [toString] using whole

theorem is_row_text {index : Nat} {step : ProgramStep} {written : String}
    (writes : step.text index = .ok written) : IsRow written step.term := by
  obtain ⟨pairs, pairsQuoted, writes⟩ := except_bind_ok writes
  obtain ⟨id, idQuoted, writes⟩ := except_bind_ok writes
  obtain ⟨name, nameQuoted, writes⟩ := except_bind_ok writes
  obtain ⟨action, actionWritten, writes⟩ := except_bind_ok writes
  cases writes
  intro earlier frames
  have remark := passes_step_comment index step.name ⟨.start, .items earlier :: frames⟩
  have opens : Passes "    Step \x7b\n        ".toList ⟨.start, .items earlier :: frames⟩
      ⟨.fields ["Step"] [], .items earlier :: frames⟩ := fun _ => rfl
  have fields := TableTerm.FieldLayout.stacked.passes_body ["Step"]
    ⟨"id", _, _, by decide, shows_quoted idQuoted⟩
    [⟨"name", _, _, by decide, shows_quoted nameQuoted⟩,
      ⟨"env", _, _, by decide, shows_listed (shows_pairs pairsQuoted)⟩,
      ⟨"action", _, _, by decide, ProgramAction.shows_text actionWritten⟩] []
    (.items earlier :: frames)
  have comma : Passes ",".toList ⟨.term step.term, .items earlier :: frames⟩
      ⟨.start, .items (earlier ++ [step.term]) :: frames⟩ := fun _ => rfl
  have whole := ((remark.trans opens).trans fields).trans comma
  simpa [toString, TableTerm.FieldLayout.body, TableTerm.FieldLayout.stacked,
    TableTerm.ShownField.text] using whole

end ProgramStep

theorem is_row_positions (indices : List Nat) :
    IsRow (positions indices) (.list (indices.map .number)) := by
  intro earlier frames
  have each : List.Forall₂ Shows (indices.map toString) (indices.map TableTerm.number) := by
    induction indices with
    | nil => exact .nil
    | cons index rest induction => exact .cons (TableTerm.shows_number index) induction
  have indent : Passes "    ".toList ⟨.start, .items earlier :: frames⟩
      ⟨.start, .items earlier :: frames⟩ := fun _ => rfl
  have row := shows_listed each (.items earlier :: frames)
  have comma : Passes [','] ⟨.term (.list (indices.map .number)), .items earlier :: frames⟩
      ⟨.start, .items (earlier ++ [.list (indices.map .number)]) :: frames⟩ := fun _ => rfl
  have whole := indent.trans (row.trans (by decide) comma)
  simpa [positions, listed] using whole

namespace TableTerm

def text? : TableTerm → Option String
  | .text value => some value
  | _ => none

def number? : TableTerm → Option Nat
  | .number value => some value
  | _ => none

def option? : TableTerm → Option (Option String)
  | .path ["None"] => some none
  | .call ["Some"] [.text value] => some (some value)
  | _ => none

def pair? : TableTerm → Option (String × String)
  | .tuple [.text key, .text value] => some (key, value)
  | _ => none

def list? {Item : Type} (item? : TableTerm → Option Item) : TableTerm → Option (List Item)
  | .list items => items.mapM item?
  | _ => none

theorem option_of_option (value : Option String) : (ofOption value).option? = some value := by
  cases value <;> rfl

theorem list_of_items {Item : Type} {item? : TableTerm → Option Item} {make : Item → TableTerm}
    (reads : ∀ item, item? (make item) = some item) (items : List Item) :
    (TableTerm.list (items.map make)).list? item? = some items := by
  rw [list?]
  induction items with
  | nil => rfl
  | cons item rest induction =>
      rw [List.map_cons, List.mapM_cons, reads, induction]
      rfl

end TableTerm

def ProgramAction.ofTerm? : TableTerm → Option ProgramAction
  | .record ["Action", "Shell"] [("command", command), ("working_dir", directory)] => do
      .some (.shell (← command.text?) (← directory.option?))
  | .record ["Action", "Compile"]
      [("source_file", sourceFile), ("output_name", outputName), ("optimize", optimize)] => do
      .some (.compile (← sourceFile.text?) (← outputName.text?) (← optimize.text?))
  | .record ["Action", "TestRun"] [("test_file", testFile), ("filter", filter)] => do
      .some (.testRun (← testFile.text?) (← filter.option?))
  | .record ["Action", "Checkout"]
      [("repository", repository), ("branch", branch), ("path", path)] => do
      .some (.checkout (← repository.text?) (← branch.text?) (← path.text?))
  | .record ["Action", "Artifact"]
      [("source_path", sourcePath), ("destination", destination)] => do
      .some (.artifact (← sourcePath.text?) (← destination.text?))
  | .record ["Action", "CacheSave"]
      [("key", key), ("paths", paths), ("cache_dir", directory)] => do
      .some (.cacheSave (← key.text?) (← paths.list? TableTerm.text?) (← directory.option?))
  | .record ["Action", "CacheRestore"] [("key", key), ("cache_dir", directory)] => do
      .some (.cacheRestore (← key.text?) (← directory.option?))
  | .record ["Action", "Custom"] [("type_name", typeName), ("parameters", parameters)] => do
      .some (.custom (← typeName.text?) (← parameters.list? TableTerm.pair?))
  | _ => none

theorem ProgramAction.of_term (action : ProgramAction) : ofTerm? action.term = some action := by
  cases action with
  | shell command directory =>
      simp only [term, ofTerm?, TableTerm.text?, TableTerm.option_of_option]
      rfl
  | compile sourceFile outputName optimize => rfl
  | testRun testFile filter =>
      simp only [term, ofTerm?, TableTerm.text?, TableTerm.option_of_option]
      rfl
  | checkout repository branch path => rfl
  | artifact sourcePath destination => rfl
  | cacheSave key paths directory =>
      have read := TableTerm.list_of_items (fun _ => rfl : ∀ path, (TableTerm.text path).text? = _)
        paths
      simp only [term, ofTerm?, TableTerm.text?, read, TableTerm.option_of_option]
      rfl
  | cacheRestore key directory =>
      simp only [term, ofTerm?, TableTerm.text?, TableTerm.option_of_option]
      rfl
  | custom typeName parameters =>
      have read := TableTerm.list_of_items (fun _ => rfl : ∀ entry, (ofPair entry).pair? = _)
        parameters
      simp only [term, ofTerm?, TableTerm.text?, read]
      rfl

def ProgramStep.ofTerm? : TableTerm → Option ProgramStep
  | .record ["Step"]
      [("id", id), ("name", name), ("env", environment), ("action", action)] => do
      .some ⟨← id.text?, ← name.text?, ← environment.list? TableTerm.pair?,
        ← ProgramAction.ofTerm? action⟩
  | _ => none

theorem ProgramStep.of_term (step : ProgramStep) : ofTerm? step.term = some step := by
  have environment := TableTerm.list_of_items (fun _ => rfl : ∀ entry, (ofPair entry).pair? = _)
    step.environment
  simp only [term, ofTerm?, TableTerm.text?, environment, ProgramAction.of_term]
  rfl

end PipelineWaves
