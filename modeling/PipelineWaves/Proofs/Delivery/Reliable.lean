import PipelineWaves.Proofs.Delivery.Mishap

/-!
# Calls without mishaps

When no call meets a mishap, a delivery to a watched tree does to the tree what
it does with the calls of the system itself: both make the same calls, and a
watched call then only counts besides.
-/

set_option autoImplicit false

namespace PipelineWaves

namespace Attempt

variable {Failure Other Result Next : Type}

/-- From a watched tree, an attempt ends like another from the tree alone. -/
def Follows (attempt : Attempt Watched Failure Result) (plain : Attempt Files Failure Result)
    (watched : Watched) : Prop :=
  ∃ turn, attempt.outcome watched =
    ((plain.outcome watched.files).1, ⟨(plain.outcome watched.files).2, turn⟩)

section Rules

variable {attempt : Attempt Watched Failure Result} {plain : Attempt Files Failure Result}
  {watched : Watched}

theorem follows_pure (result : Result) :
    (pure result : Attempt Watched Failure Result).Follows (pure result) watched :=
  ⟨watched.turn, rfl⟩

theorem follows_throw (failure : Failure) :
    (throw failure : Attempt Watched Failure Result).Follows (throw failure) watched :=
  ⟨watched.turn, rfl⟩

theorem Follows.bind {next : Result → Attempt Watched Failure Next}
    {plainNext : Result → Attempt Files Failure Next} (follows : attempt.Follows plain watched)
    (continues : ∀ result after, (next result).Follows (plainNext result) after) :
    (attempt >>= next).Follows (plain >>= plainNext) watched := by
  obtain ⟨turn, ended⟩ := follows
  rw [Follows, outcome_bind, outcome_bind, ended]
  rcases plain.outcome watched.files with ⟨failure | result, after⟩
  · exact ⟨turn, rfl⟩
  · exact continues result ⟨after, turn⟩

theorem follows_get_bind {next : Watched → Attempt Watched Failure Result}
    {plainNext : Files → Attempt Files Failure Result}
    (continues : (next watched).Follows (plainNext watched.files) watched) :
    (get >>= next : Attempt Watched Failure Result).Follows (get >>= plainNext) watched :=
  continues

theorem Follows.mapFailure (follows : attempt.Follows plain watched) (change : Failure → Other) :
    (attempt.mapFailure change).Follows (plain.mapFailure change) watched := by
  obtain ⟨turn, ended⟩ := follows
  exact ⟨turn, by rw [outcome_map_failure, outcome_map_failure, ended]⟩

theorem Follows.tried (follows : attempt.Follows plain watched) :
    (attempt.tried : Attempt Watched Other _).Follows plain.tried watched := by
  obtain ⟨turn, ended⟩ := follows
  exact ⟨turn, by rw [outcome_tried, outcome_tried, ended]⟩

theorem Follows.ignoringFailure {attempt : Attempt Watched Failure Unit}
    {plain : Attempt Files Failure Unit} (follows : attempt.Follows plain watched) :
    (attempt.ignoringFailure : Attempt Watched Other Unit).Follows plain.ignoringFailure
      watched := by
  obtain ⟨turn, ended⟩ := follows
  exact ⟨turn, by rw [outcome_ignoring_failure, outcome_ignoring_failure, ended]⟩

end Rules

end Attempt

/-- Calls that no mishap meets. -/
abbrev FileCalls.reliable (backups : FilePath) : FileCalls Watched :=
  FileCalls.unreliable (fun _ => none) backups

namespace FileCalls

variable {backups : FilePath} {watched : Watched}

theorem reliable_create_directories (path : FilePath) :
    ((reliable backups).createDirectories path).Follows (Files.calls.createDirectories path)
      watched :=
  ⟨watched.turn + 1, rfl⟩

theorem reliable_write_text (path : FilePath) (text : String) :
    ((reliable backups).writeText path text).Follows (Files.calls.writeText path text) watched :=
  ⟨watched.turn + 1, rfl⟩

theorem reliable_rename (old new : FilePath) :
    ((reliable backups).rename old new).Follows (Files.calls.rename old new) watched := by
  simp only [unreliable]
  split
  · exact ⟨watched.turn, rfl⟩
  · exact ⟨watched.turn + 1, rfl⟩

theorem reliable_remove_file (path : FilePath) :
    ((reliable backups).removeFile path).Follows (Files.calls.removeFile path) watched :=
  ⟨watched.turn, rfl⟩

theorem reliable_remove_tree (path : FilePath) :
    ((reliable backups).removeTree path).Follows (Files.calls.removeTree path) watched :=
  ⟨watched.turn, rfl⟩

end FileCalls

namespace Delivery

variable {backups : FilePath} {watched : Watched}

theorem create_parent_follows (path : FilePath) :
    (createParent (.reliable backups) path).Follows (createParent Files.calls path) watched := by
  rw [createParent, createParent]
  cases path.parent? with
  | none => exact Attempt.follows_pure ()
  | some parent => exact (FileCalls.reliable_create_directories parent).mapFailure _

theorem stage_follows (staging : FilePath) (files : List ProgramFile) :
    (stage (.reliable backups) staging files).Follows (stage Files.calls staging files)
      watched := by
  induction files generalizing watched with
  | nil => exact Attempt.follows_pure ()
  | cons file rest induction =>
      rw [stage, stage]
      refine (create_parent_follows _).bind fun _ _ => ?_
      exact ((FileCalls.reliable_write_text _ _).mapFailure _).bind fun _ _ => induction

theorem restore_follows (replaced : Replaced) :
    (restore (.reliable backups) replaced).Follows (restore Files.calls replaced) watched := by
  rw [restore, restore]
  refine (FileCalls.reliable_remove_file _).ignoringFailure.bind fun _ _ => ?_
  cases replaced.backup with
  | none => exact Attempt.follows_pure ()
  | some backup => exact (FileCalls.reliable_rename _ _).ignoringFailure

theorem restore_all_follows (done : List Replaced) :
    (done.forM (restore (.reliable backups))).Follows (done.forM (restore Files.calls))
      watched := by
  induction done generalizing watched with
  | nil => exact Attempt.follows_pure ()
  | cons replaced done induction =>
      rw [List.forM_eq_forM, List.forM_eq_forM, List.forM_cons, List.forM_cons]
      exact (restore_follows replaced).bind fun _ _ => induction

theorem park_follows (target backup : FilePath) :
    (park (.reliable backups) target backup).Follows (park Files.calls target backup)
      watched := by
  rw [park, park]
  refine Attempt.follows_get_bind ?_
  have same : (FileCalls.reliable backups).isFile watched target =
      Files.calls.isFile watched.files target := rfl
  rw [same]
  split
  · refine (create_parent_follows _).bind fun _ _ => ?_
    exact ((FileCalls.reliable_rename _ _).mapFailure _).bind fun _ _ => Attempt.follows_pure _
  · exact Attempt.follows_pure _

theorem replace_follows (staged target backup : FilePath) :
    (replace (.reliable backups) staged target backup).Follows
      (replace Files.calls staged target backup) watched := by
  rw [replace, replace]
  refine (create_parent_follows _).bind fun _ _ => (park_follows _ _).bind fun parked _ => ?_
  refine ((FileCalls.reliable_rename _ _).mapFailure _).tried.bind fun result _ => ?_
  cases result with
  | ok _ => exact Attempt.follows_pure parked
  | error failure =>
      dsimp only
      cases parked.backup with
      | none => exact Attempt.follows_throw failure
      | some backup =>
          exact (FileCalls.reliable_rename _ _).ignoringFailure.bind
            fun _ _ => Attempt.follows_throw failure

theorem replace_all_follows (staging directory : FilePath) (done : List Replaced)
    (files : List ProgramFile) :
    (replaceAll (.reliable backups) staging directory done files).Follows
      (replaceAll Files.calls staging directory done files) watched := by
  induction files generalizing done watched with
  | nil => exact Attempt.follows_pure ()
  | cons file rest induction =>
      rw [replaceAll, replaceAll]
      refine (replace_follows _ _ _).tried.bind fun result _ => ?_
      cases result with
      | ok replaced => exact induction (replaced :: done)
      | error failure =>
          exact (restore_all_follows done).bind fun _ _ => Attempt.follows_throw failure

theorem install_follows (staging directory : FilePath) (files : List ProgramFile) :
    (install (.reliable backups) staging directory files).Follows
      (install Files.calls staging directory files) watched := by
  rw [install, install]
  refine (stage_follows staging files).bind fun _ staged => Attempt.follows_get_bind ?_
  have same : (FileCalls.reliable backups).isPresent staged directory =
      Files.calls.isPresent staged.files directory := rfl
  rw [same]
  split
  · exact replace_all_follows staging directory [] files
  · exact (FileCalls.reliable_rename _ _).mapFailure _

theorem deliver_follows (program : GeneratedProgram) (identifier : RunIdentifier)
    (directory : FilePath) :
    (program.deliver (.reliable backups) identifier directory).Follows
      (program.deliver Files.calls identifier directory) watched := by
  rw [GeneratedProgram.deliver, GeneratedProgram.deliver]
  refine ((FileCalls.reliable_create_directories _).mapFailure _).bind fun _ _ => ?_
  refine (install_follows _ _ _).tried.bind fun result _ => ?_
  refine (FileCalls.reliable_remove_tree _).ignoringFailure.bind fun _ _ => ?_
  cases result with
  | ok _ => exact Attempt.follows_pure ()
  | error failure => exact Attempt.follows_throw failure

end Delivery

namespace Production

/-- A production with the calls of the system ends like one that meets no mishap. -/
theorem run_follows (backups : FilePath) (watched : Watched) (identifier : RunIdentifier)
    (path out : FilePath) :
    let watching := runWith (.reliable backups)
      (fun watched => Definition.load watched.files) identifier path out watched
    watching.result = (run identifier path out watched.files).result ∧
      watching.files.files = (run identifier path out watched.files).files := by
  rw [run, runWith, runWith]
  cases Definition.load watched.files path with
  | error failure => exact ⟨rfl, rfl⟩
  | ok definition =>
      dsimp only
      cases CompiledPipeline.compile definition.toPipeline with
      | error failure => exact ⟨rfl, rfl⟩
      | ok compiled =>
          simp only [deliver]
          cases compiled.generate with
          | error failure => exact ⟨rfl, rfl⟩
          | ok program =>
              have follows : (program.deliver (.reliable backups) identifier out).Follows
                  (program.deliver Files.calls identifier out) watched :=
                Delivery.deliver_follows program identifier out
              obtain ⟨turn, ended⟩ := follows
              dsimp only
              rw [ended]
              rcases (program.deliver Files.calls identifier out).outcome watched.files with
                ⟨_ | _, _⟩ <;> exact ⟨rfl, rfl⟩

end Production

end PipelineWaves
