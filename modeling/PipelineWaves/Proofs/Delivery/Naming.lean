import PipelineWaves.Proofs.Delivery.Site

/-!
# Names of staging directories

A staging name has a hyphen, which no path of a program has, and no slash, as an
identifier is written with hexadecimal digits and hyphens only. So if the name
is new, the paths of a delivery are apart from the staging directory.
-/

set_option autoImplicit false

namespace PipelineWaves

namespace RunIdentifier

def IsHexadecimal (identifier : RunIdentifier) : Prop :=
  identifier.digits.all isHexDigit = true

instance (identifier : RunIdentifier) : Decidable identifier.IsHexadecimal :=
  inferInstanceAs (Decidable (identifier.digits.all isHexDigit = true))

theorem slash_not_in_text {identifier : RunIdentifier}
    (hexadecimal : identifier.IsHexadecimal) : '/' ∉ identifier.text.toList := by
  have noDigit : '/' ∉ identifier.digits := by
    intro member
    have isDigit := List.all_eq_true.1 hexadecimal '/' member
    exact absurd isDigit (by decide)
  have noGroup : ∀ start length, '/' ∉ (identifier.digits.drop start).take length :=
    fun start length member => noDigit (List.mem_of_mem_drop (List.mem_of_mem_take member))
  have noFirst := noGroup 0 8
  rw [List.drop_zero] at noFirst
  simp [text, noFirst, noGroup]

end RunIdentifier

namespace Delivery

/-- The name under which the files of a directory are staged. -/
def stagingName (directory : FilePath) (identifier : RunIdentifier) : String :=
  let name := directory.name?.getD "generated"
  s!".{name}.staging-{identifier.text}"

def Site.of (directory : FilePath) (identifier : RunIdentifier) : Site :=
  ⟨parentOf directory, directory, stagingName directory identifier⟩

section Names

variable {identifier : RunIdentifier} {directory : FilePath}

theorem staging_name_spelled (directory : FilePath) (identifier : RunIdentifier) :
    stagingName directory identifier =
      "." ++ directory.name?.getD "generated" ++ ".staging-" ++ identifier.text := rfl

theorem staging_name_ne {name : String} (noHyphen : '-' ∉ name.toList) :
    stagingName directory identifier ≠ name := by
  rintro rfl
  apply noHyphen
  simp [staging_name_spelled]

theorem slash_not_in_staging_name (hexadecimal : identifier.IsHexadecimal) :
    '/' ∉ (stagingName directory identifier).toList := by
  have noText := RunIdentifier.slash_not_in_text hexadecimal
  have noName : '/' ∉ (directory.name?.getD "generated").toList := by
    cases named : directory.name? with
    | none => decide
    | some name => exact FilePath.slash_not_in_piece (FilePath.name_in_pieces named)
  simp [staging_name_spelled, noText, noName]

theorem staging_name_pieces (hexadecimal : identifier.IsHexadecimal) :
    FilePath.pieces ⟨stagingName directory identifier⟩ = [stagingName directory identifier] := by
  have single := FilePath.pieces_of_text (List.cons_ne_nil (stagingName directory identifier) [])
    (by simpa using slash_not_in_staging_name hexadecimal)
  rwa [String.intercalate_singleton] at single

/-- The directory that a path lies in has a text and no new names. -/
theorem parent_of_sound {name : String} (apart : name ∉ directory.pieces) (notEmpty : name ≠ "")
    (notDot : name ≠ ".") : (parentOf directory).text ≠ "" ∧ name ∉ (parentOf directory).pieces := by
  have current : (⟨"."⟩ : FilePath).text ≠ "" ∧ name ∉ FilePath.pieces ⟨"."⟩ := by
    refine ⟨by decide, ?_⟩
    rw [show FilePath.pieces ⟨"."⟩ = ["."] by decide, List.mem_singleton]
    exact notDot
  rw [parentOf]
  split
  · rename_i parent above
    split
    · exact current
    · rename_i someText
      refine ⟨someText, fun member => ?_⟩
      rcases FilePath.parent_pieces above with nameless | inFront
      · have named : name ∈ parent.names := List.mem_filter.2 ⟨member, by simpa using notEmpty⟩
        rw [nameless] at named
        exact List.not_mem_nil named
      · exact apart (inFront.subset member)
  · exact current

variable (hexadecimal : identifier.IsHexadecimal)
  (apart : stagingName directory identifier ∉ directory.pieces)
include hexadecimal apart

theorem site_sound : (Site.of directory identifier).IsSound := by
  have notEmpty : stagingName directory identifier ≠ "" := staging_name_ne (by decide)
  have notDot : stagingName directory identifier ≠ "." := staging_name_ne (by decide)
  have parent := parent_of_sound apart notEmpty notDot
  refine ⟨parent.1, fun piece member => ?_, staging_name_pieces hexadecimal,
    staging_name_ne (by decide), parent.2, apart⟩
  have same : piece = stagingName directory identifier := by
    rw [← List.mem_singleton, ← staging_name_pieces hexadecimal]
    exact member
  rw [same]
  exact ⟨notEmpty, notDot, staging_name_ne (by decide)⟩

omit hexadecimal apart in
/-- Plain and short names without a hyphen are free for use in any staging directory. -/
theorem takes_of_path {path : FilePath} (inner : path.IsInner)
    (short : ∀ piece ∈ path.pieces, piece.utf8ByteSize ≤ Walk.longestName)
    (noHyphen : ∀ piece ∈ path.pieces, '-' ∉ piece.toList)
    (notBackup : path.pieces.head? ≠ some backupName.text) (contents : String) :
    (Site.of directory identifier).Takes ⟨path, contents⟩ :=
  ⟨inner, short, fun member => staging_name_ne (noHyphen _ member) rfl, notBackup⟩

omit hexadecimal apart in
/-- The files of a program are for any site, and at paths of their own. -/
theorem program_takes {compiled : CompiledPipeline} {program : GeneratedProgram}
    (generated : compiled.generate = .ok program) :
    (∀ file ∈ program.files, (Site.of directory identifier).Takes file) ∧
      program.files.Pairwise (fun first second => first.path.pieces ≠ second.path.pieces) ∧
      program.files ≠ [] := by
  obtain ⟨values, _, generated⟩ := except_bind_ok generated
  obtain ⟨manifest, _, generated⟩ := except_bind_ok generated
  obtain ⟨main, _, generated⟩ := except_bind_ok generated
  cases generated
  have apart : GeneratedProgram.manifestPath.pieces ≠ GeneratedProgram.mainPath.pieces := by decide
  refine ⟨?_, by simpa using apart, by simp⟩
  rw [List.forall_mem_cons, List.forall_mem_singleton]
  exact ⟨takes_of_path (by decide) (by decide) (by decide) (by decide) manifest,
    takes_of_path (by decide) (by decide) (by decide) (by decide) main⟩

end Names

end Delivery

end PipelineWaves
