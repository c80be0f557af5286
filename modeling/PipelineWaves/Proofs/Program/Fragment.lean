import PipelineWaves.Program.Fragment
import PipelineWaves.Proofs.Program.Template

/-!
# Placeholders of the fragments

The fragments have a placeholder for every value of a program and no others. Each
line is looked at once: it has at most one placeholder, which does not reach into
the next line. So the arms of the conditions end up between the fixed lines of
the function that chooses among them.
-/

set_option autoImplicit false

namespace PipelineWaves.ProgramFragment

open Template

/-- What conditions call, and the function of the conditions up to its arms. -/
def conditionHead : List String :=
  ["fn env_get(env: &'static [(&'static str, &'static str)], key: &str) -> &'static str \x7b",
    "    env.iter()",
    "        .find(|(k, _)| *k == key)",
    "        .map(|(_, v)| *v)",
    "        .unwrap_or(\"\")",
    "\x7d",
    "",
    "fn truthy(value: &str) -> bool \x7b",
    "    !value.is_empty() && value != \"false\" && value != \"0\"",
    "\x7d",
    "",
    "fn condition(",
    "    index: usize,",
    "    env: &'static [(&'static str, &'static str)],",
    "    outcomes: &[Option<Outcome>],",
    ") -> bool \x7b",
    "    let _ = (env, outcomes);",
    "    match index \x7b"]

/-- The function of the conditions behind its arms. -/
def conditionTail : List String :=
  ["        _ => true,",
    "    \x7d",
    "\x7d"]

/-- The types and tables before the conditions. -/
def tableLines : List String := declarationLines.take 93

def conditionHole : String := "\x7b\x7b conditions \x7d\x7d"

/-- Everything behind the conditions but the empty line at the end. -/
def runtimeLines : List String :=
  [""] ++ processLines ++ fileLines ++ actionLines ++ schedulerLines.dropLast

theorem program_eq :
    program = terminated (tableLines ++ (conditionHead ++ (conditionHole ::
      (conditionTail ++ runtimeLines)))) := by
  have scheduler : schedulerLines = schedulerLines.dropLast ++ [""] := rfl
  have declarations : declarationLines =
      tableLines ++ conditionHead ++ [conditionHole] ++ conditionTail ++ [""] := rfl
  rw [program, text, ← intercalate_eq_terminated, scheduler, declarations]
  simp [runtimeLines]

theorem manifest_eq : manifest = terminated manifestLines.dropLast := by
  have lines : manifestLines = manifestLines.dropLast ++ [""] := rfl
  rw [manifest, text, lines, intercalate_eq_terminated]
  rfl

theorem table_keys :
    LineKeys tableLines
      ["pipeline_comment", "pipeline_name", "default_toolchain", "handler_prefix", "app_name",
        "steps", "waves", "dependents"] := by
  unfold tableLines declarationLines
  repeat
    first
    | refine .plain _ (by decide) ?_
    | refine .hole _ (by decide) (by decide) ?_
  exact .nil

theorem condition_head_keys : LineKeys conditionHead [] := by
  unfold conditionHead
  repeat refine .plain _ (by decide) ?_
  exact .nil

theorem condition_hole_keys : LineKeys [conditionHole] ["conditions"] :=
  .hole _ (by decide) (by decide) .nil

theorem condition_tail_keys : LineKeys conditionTail [] := by
  unfold conditionTail
  repeat refine .plain _ (by decide) ?_
  exact .nil

theorem process_keys : LineKeys processLines [] := by
  unfold processLines
  repeat refine .plain _ (by decide) ?_
  exact .nil

theorem file_keys : LineKeys fileLines [] := by
  unfold fileLines
  repeat refine .plain _ (by decide) ?_
  exact .nil

theorem action_keys : LineKeys actionLines [] := by
  unfold actionLines
  repeat refine .plain _ (by decide) ?_
  exact .nil

theorem scheduler_keys : LineKeys schedulerLines.dropLast [] := by
  unfold schedulerLines
  repeat refine .plain _ (by decide) ?_
  exact .nil

theorem runtime_keys : LineKeys runtimeLines [] := by
  have blank : LineKeys [""] [] := .plain _ (by decide) .nil
  exact (((blank.append process_keys).append file_keys).append action_keys).append scheduler_keys

theorem program_keys :
    keysOf (segments program) =
      ["pipeline_comment", "pipeline_name", "default_toolchain", "handler_prefix", "app_name",
        "steps", "waves", "dependents", "conditions"] := by
  rw [program_eq]
  exact (table_keys.append (condition_head_keys.append
    (condition_hole_keys.append (condition_tail_keys.append runtime_keys)))).keys_eq

theorem manifest_keys :
    keysOf (segments manifest) = ["pipeline_comment", "package_name", "package_name"] := by
  have lines : LineKeys manifestLines.dropLast
      ["pipeline_comment", "package_name", "package_name"] := by
    unfold manifestLines
    repeat
      first
      | refine .plain _ (by decide) ?_
      | refine .hole _ (by decide) (by decide) ?_
    exact .nil
  rw [manifest_eq]
  exact lines.keys_eq

def conditionPlaceholder : Placeholder where
  before := [' ']
  first := 'c'
  more := ['o', 'n', 'd', 'i', 't', 'i', 'o', 'n', 's']
  behind := [' ']
  blankBefore := by decide
  starts := by decide
  continues := by decide
  blankBehind := by decide

theorem filled_condition_hole {values : List (String × String)} {arms : String}
    (found : values.lookup "conditions" = some arms) :
    filled values (terminated [conditionHole]) = arms ++ "\n" := by
  have line : (terminated [conditionHole]).toList = conditionPlaceholder.characters ++ ['\n'] := by
    simp [terminated, conditionHole, Placeholder.characters, conditionPlaceholder]
  have key : conditionPlaceholder.key = "conditions" := rfl
  have lineFeed : segmentsOf ['\n'] = [.plain '\n'] := segments_of_plain rfl
  rw [filled, segments, line, segments_of_placeholder, lineFeed, key]
  simp [fill, found]

/-- The function of the conditions holds the arms between its fixed lines. -/
theorem filled_condition_function {values : List (String × String)} {arms : String}
    (found : values.lookup "conditions" = some arms) :
    filled values (terminated (conditionHead ++ (conditionHole ::
        (conditionTail ++ runtimeLines)))) =
      terminated conditionHead ++ arms ++ "\n" ++ terminated conditionTail
        ++ filled values (terminated runtimeLines) := by
  have rest : filled values (terminated (conditionTail ++ runtimeLines)) =
      terminated conditionTail ++ filled values (terminated runtimeLines) := by
    rw [filled_lines values condition_tail_keys, filled_plain values condition_tail_keys.keys_eq]
  have hole : filled values (terminated (conditionHole :: (conditionTail ++ runtimeLines))) =
      arms ++ "\n" ++ (terminated conditionTail ++ filled values (terminated runtimeLines)) := by
    rw [← rest, ← filled_condition_hole found]
    exact filled_lines values condition_hole_keys _
  rw [filled_lines values condition_head_keys, filled_plain values condition_head_keys.keys_eq,
    hole]
  simp only [String.append_assoc]

theorem conditions_in_filled {values : List (String × String)} {arms : String}
    (found : values.lookup "conditions" = some arms) :
    ∃ before after, filled values program =
      before ++ terminated conditionHead ++ arms ++ "\n" ++ terminated conditionTail ++ after := by
  refine ⟨filled values (terminated tableLines), filled values (terminated runtimeLines), ?_⟩
  rw [program_eq, filled_lines values table_keys, filled_condition_function found]
  simp only [String.append_assoc]

end PipelineWaves.ProgramFragment
