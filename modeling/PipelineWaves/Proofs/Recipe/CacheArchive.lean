import PipelineWaves.Proofs.Files.Path
import PipelineWaves.Proofs.Recipe.Call
import PipelineWaves.Proofs.Text.Trimmed

/-!
# Archives of caches

An accepted key names one archive, which is one plain component below the cache directory,
whatever the directory is. Different keys name different archives, and a save and a restore
of one key meet at the same one.
-/

set_option autoImplicit false

namespace PipelineWaves

open Attempt

namespace FilePath

variable {base inner : FilePath}

theorem body_of_inner (plain : inner.IsInner) :
    inner.pieces.filterMap componentOf = inner.pieces.map .normal := by
  rw [← List.filterMap_eq_map]
  apply List.filterMap_congr
  intro piece member
  have named := plain piece member
  simp [componentOf, named]

theorem components_of_inner (plain : inner.IsInner) :
    inner.components = inner.pieces.map .normal := by
  have notDot : inner.pieces.head? ≠ some "." := by
    intro dot
    exact (plain "." (List.mem_of_mem_head? dot)).2.1 rfl
  unfold components
  rw [body_of_inner plain, inner_relative plain, if_neg Bool.false_ne_true, if_neg notDot]

theorem head_of_front {front : List String} (someText : base.text ≠ "")
    (split : base.pieces = front ∨ base.pieces = front ++ [""]) (rest : List String) :
    (front ++ rest).head? = base.pieces.head? := by
  have someFront : front ≠ [] := by
    rintro rfl
    rcases split with empty | empty
    · exact base.pieces_ne_nil empty
    · apply someText
      rw [← text_of_pieces base, empty]
      rfl
  rw [List.head?_append_of_ne_nil _ someFront]
  rcases split with same | slash
  · rw [same]
  · rw [slash, List.head?_append_of_ne_nil _ someFront]

theorem body_of_front {front : List String}
    (split : base.pieces = front ∨ base.pieces = front ++ [""]) :
    front.filterMap componentOf = base.pieces.filterMap componentOf := by
  rcases split with same | slash
  · rw [same]
  · have nothing : componentOf "" = none := rfl
    rw [slash, List.filterMap_append, List.filterMap_cons_none nothing, List.filterMap_nil,
      List.append_nil]

theorem components_join (base : FilePath) (plain : inner.IsInner) :
    (base.join inner).components = base.components ++ inner.pieces.map .normal := by
  by_cases empty : base.text = ""
  · have joined : base.join inner = inner := if_pos (by simp [empty])
    have noComponents : base.components = [] := by
      unfold components isAbsolute pieces piecesOf
      rw [empty]
      rfl
    rw [joined, noComponents, components_of_inner plain, List.nil_append]
  · obtain ⟨front, split, joined⟩ := pieces_join empty (inner_relative plain)
    unfold components
    rw [absolute_join empty (inner_relative plain), joined, head_of_front empty split,
      List.filterMap_append, body_of_front split, body_of_inner plain]
    split_ifs
    · rfl
    · rfl
    · rfl

end FilePath

/-- A key that can name a file of the cache directory, and no other place. -/
structure IsCacheKey (key : String) : Prop where
  not_blank : ∃ character ∈ key.toList, Text.isBlank character = false
  no_slash : '/' ∉ key.toList
  no_backslash : '\\' ∉ key.toList
  no_double_dot : ¬['.', '.'] <:+: key.toList
  no_nul : '\x00' ∉ key.toList

theorem contains_double_dot_iff (characters : List Char) :
    containsDoubleDot characters = true ↔ ['.', '.'] <:+: characters := by
  induction characters using containsDoubleDot.induct with
  | case1 rest => simpa [containsDoubleDot] using (List.prefix_append ['.', '.'] rest).isInfix
  | case2 first rest notDots induction =>
      rw [containsDoubleDot, induction, List.infix_cons_iff, or_iff_right]
      · rintro ⟨after, split⟩
        obtain ⟨rfl, rfl⟩ := List.cons.inj split
        exact notDots after rfl rfl
      · exact notDots
  | case3 => simp [containsDoubleDot]

theorem key_fault_none_iff {key : String} : keyFault? key = none ↔ IsCacheKey key := by
  have dots := contains_double_dot_iff key.toList
  constructor
  · intro faultless
    simp only [keyFault?] at faultless
    split_ifs at faultless with blank separator doubleDot nul
    simp only [Bool.or_eq_true, List.contains_iff_mem, not_or] at separator
    refine ⟨?_, separator.1, separator.2, ?_, ?_⟩
    · exact Text.not_blank_iff.1 (by simpa using blank)
    · rwa [← dots]
    · simpa [containsNul] using nul
  · rintro ⟨notBlank, noSlash, noBackslash, noDots, noNul⟩
    have blank : Text.isBlankText key = false := Text.not_blank_iff.2 notBlank
    rw [← dots, Bool.not_eq_true] at noDots
    simp [keyFault?, containsNul, blank, noSlash, noBackslash, noDots, noNul]

theorem validate_key_ok_iff {key : String} : validateKey key = .ok () ↔ IsCacheKey key := by
  rw [← key_fault_none_iff, validateKey]
  cases keyFault? key <;> simp

namespace CacheArchive

/-- The name of an archive is one plain piece: it has no slash, and what stands behind the
key keeps it from being dots. -/
theorem name_inner {key : String} (noSlash : '/' ∉ key.toList) :
    FilePath.pieces ⟨key ++ ".tar.gz"⟩ = [key ++ ".tar.gz"] ∧
      FilePath.IsInner ⟨key ++ ".tar.gz"⟩ := by
  have wholeName : '/' ∉ (key ++ ".tar.gz").toList := by simp [noSlash]
  have onePiece : FilePath.pieces ⟨key ++ ".tar.gz"⟩ = [key ++ ".tar.gz"] := by
    have pieces : FilePath.pieces ⟨"/".intercalate [key ++ ".tar.gz"]⟩ = [key ++ ".tar.gz"] :=
      FilePath.pieces_of_text (by simp) (by simpa)
    simpa using pieces
  refine ⟨onePiece, ?_⟩
  unfold FilePath.IsInner
  rw [onePiece]
  intro piece member
  have long : 2 < piece.toList.length := by
    rw [List.mem_singleton.1 member, String.toList_append, List.length_append]
    simp
  refine ⟨?_, ?_, ?_⟩
  · rintro rfl
    exact absurd long (by decide)
  · rintro rfl
    exact absurd long (by decide)
  · rintro rfl
    exact absurd long (by decide)

theorem path_components (archive : CacheArchive) (valid : IsCacheKey archive.key) :
    archive.path.components =
      archive.directory.components ++ [.normal (archive.key ++ ".tar.gz")] := by
  obtain ⟨onePiece, plain⟩ := name_inner valid.no_slash
  rw [path, FilePath.components_join archive.directory plain, onePiece]
  rfl

theorem same_path_iff {left right : CacheArchive} (leftValid : IsCacheKey left.key)
    (rightValid : IsCacheKey right.key) :
    left.path.sameAs right.path = true ↔
      left.directory.sameAs right.directory = true ∧ left.key = right.key := by
  simp only [FilePath.sameAs, decide_eq_true_eq, path_components left leftValid,
    path_components right rightValid, List.append_singleton_inj]
  simp

/-- The directory that a step names, without the blanks around it, or the standard one when
it names none. -/
structure LiesIn (archive : CacheArchive) (settings : RecipeSettings) (home : String)
    (given : Option String) : Prop where
  named : ∀ directory, given = some directory → Text.isBlankText directory = false →
    archive.directory = settings.resolve ⟨Text.trimBlank directory⟩
  standard : (∀ directory, given = some directory → Text.isBlankText directory = true) →
    archive.directory = settings.defaultCacheDirectory home

theorem directory_lies_in (settings : RecipeSettings) (home key : String)
    (given : Option String) :
    (CacheArchive.mk (directoryOf settings home given) key).LiesIn settings home given := by
  constructor
  · rintro directory rfl notBlank
    have named : Text.trimBlank directory ≠ "" := by
      rw [Ne, Text.trim_blank_eq_empty, notBlank]
      exact Bool.false_ne_true
    exact if_neg named
  · intro blank
    cases given with
    | none => rfl
    | some directory => exact if_pos (Text.trim_blank_eq_empty.2 (blank directory rfl))

/-- At most one process was started on the way, and it was called on the archive. -/
def CalledOn (archive : CacheArchive) (before after : World) : Prop :=
  after.launches = before.launches ∨
    ∃ launch mode rest, after.launches = before.launches ++ [launch] ∧
      launch.arguments = mode :: archive.path.text :: rest

end CacheArchive

theorem StepPlace.run_launches (place : StepPlace) (directory : Option FilePath) (program : String)
    (arguments : List String) (state : StepState) :
    ((place.run directory program arguments).outcome state).2.world.launches =
        state.world.launches ∨
      ((place.run directory program arguments).outcome state).2.world.launches =
        state.world.launches ++ [place.launchOf directory program arguments] := by
  rw [run, outcome_bind]
  rcases place.start_unfolds (place.launchOf directory program arguments) state.world with
    started | started
  · rw [probe_outcome started]
    exact .inl rfl
  · rw [probe_outcome started]
    cases (place.machine.launch (place.launchOf directory program arguments) state.world).1 with
    | error fault => exact .inr rfl
    | ok output =>
        refine .inr ?_
        dsimp only [Except.mapError]
        rw [record_outcome]

namespace CacheArchive

/-- Making a directory starts no process; a program called on the archive is the only one. -/
theorem called_on_run (archive : CacheArchive) (place : StepPlace) (path : FilePath)
    (make : FileCall Unit) (tar mode : String) (rest : List String) (state : StepState) :
    archive.CalledOn state.world
      ((Doing.call path make >>= fun _ =>
        place.run none tar (mode :: archive.path.text :: rest)).outcome state).2.world := by
  rw [outcome_bind]
  cases made : (Doing.call path make).outcome state with
  | mk result after =>
      have sameLaunches : after.world.launches = state.world.launches := by
        rw [← show ((Doing.call path make).outcome state).2 = after by rw [made]]
        rfl
      cases result with
      | error failure => exact .inl sameLaunches
      | ok result =>
          dsimp only
          rcases place.run_launches none tar (mode :: archive.path.text :: rest) after with
            nothing | started
          · exact .inl (by rw [nothing, sameLaunches])
          · exact .inr ⟨_, mode, rest, by rw [started, sameLaunches], rfl⟩

theorem save_called_on (archive : CacheArchive) (tar : String) (paths : List String)
    (place : StepPlace) (state : StepState) :
    archive.CalledOn state.world ((archive.save tar paths place).outcome state).2.world := by
  rw [save, outcome_get_bind]
  dsimp only
  split
  · exact .inl rfl
  · exact archive.called_on_run place _ _ tar "-czf" _ state

theorem restore_called_on (archive : CacheArchive) (tar : String) (place : StepPlace)
    (state : StepState) :
    archive.CalledOn state.world ((archive.restore tar place).outcome state).2.world := by
  rw [restore, outcome_get_bind]
  split
  · exact archive.called_on_run place _ _ tar "-xzf" _ state
  · exact .inl rfl

end CacheArchive

def ReadyAction.archive? : ReadyAction → Option CacheArchive
  | .save archive _ _ => some archive
  | .restore archive _ => some archive
  | _ => none

theorem archive_of_key (settings : RecipeSettings) (home : String) {key : String}
    (valid : IsCacheKey key) (given : Option String) :
    CacheArchive.of settings home key given =
      .ok ⟨CacheArchive.directoryOf settings home given, key⟩ := by
  rw [CacheArchive.of, validate_key_ok_iff.2 valid, except_ok_bind]

theorem ready_cache_of_key (settings : RecipeSettings) (home : String) {key : String}
    (valid : IsCacheKey key) (operation : CacheOperation) (paths : String)
    (given : Option String) :
    ∃ ready, (Action.cache operation key paths given).ready settings home = .ok ready ∧
      ready.archive? = some ⟨CacheArchive.directoryOf settings home given, key⟩ := by
  rw [Action.ready, archive_of_key settings home valid given, except_ok_bind]
  cases operation with
  | save => exact ⟨_, rfl, rfl⟩
  | restore => exact ⟨_, rfl, rfl⟩

theorem cache_key_of_ready {settings : RecipeSettings} {home key paths : String}
    {operation : CacheOperation} {given : Option String} {ready : ReadyAction}
    (accepted : (Action.cache operation key paths given).ready settings home = .ok ready) :
    IsCacheKey key := by
  obtain ⟨archive, archived, _⟩ := except_bind_ok accepted
  obtain ⟨⟨⟩, valid, _⟩ := except_bind_ok archived
  exact validate_key_ok_iff.1 valid

theorem archive_of_ready {settings : RecipeSettings} {home key paths : String}
    {operation : CacheOperation} {given : Option String} {ready : ReadyAction}
    (accepted : (Action.cache operation key paths given).ready settings home = .ok ready) :
    ready.archive? = some ⟨CacheArchive.directoryOf settings home given, key⟩ := by
  obtain ⟨other, sameReady, archive⟩ := ready_cache_of_key settings home
    (cache_key_of_ready accepted) operation paths given
  rw [accepted] at sameReady
  cases sameReady
  exact archive

namespace CacheArchive

theorem name_of_path (archive : CacheArchive) (valid : IsCacheKey archive.key) :
    archive.path.name? = some (archive.key ++ ".tar.gz") := by
  rw [FilePath.name?, path_components archive valid, List.getLast?_concat]

theorem called_on_perform (workshop : Workshop) {key : String} (valid : IsCacheKey key)
    (operation : CacheOperation) (paths : String) (given : Option String)
    (environment : Environment) (world : World) :
    (CacheArchive.mk (directoryOf workshop.settings workshop.machine.home given) key).CalledOn world
      (workshop.perform (.cache operation key paths given) environment world).world := by
  rw [Workshop.perform, Action.ready, archive_of_key _ _ valid given, except_ok_bind]
  cases operation with
  | save =>
      dsimp only [ReadyAction.run, ReadyAction.runOwn]
      rw [outcome_map_failure]
      exact save_called_on _ _ _ _ _
  | restore =>
      dsimp only [ReadyAction.run, ReadyAction.runOwn]
      rw [outcome_map_failure]
      exact restore_called_on _ _ _ _

end CacheArchive

/-- Exactly the cache actions with a valid key are made ready. Each works on one archive only,
directly in the cache directory and under the name of its key; saving and restoring agree on
it, and no other key or directory leads to it. -/
theorem archives_stay_in_cache_directory (workshop : Workshop) :
    (∀ operation key paths given,
      (∃ ready, (Action.cache operation key paths given).ready workshop.settings
        workshop.machine.home = .ok ready) ↔ IsCacheKey key) ∧
    (∀ operation key paths given ready,
      (Action.cache operation key paths given).ready workshop.settings workshop.machine.home =
          .ok ready →
        ∃ archive, ready.archive? = some archive ∧
          archive.LiesIn workshop.settings workshop.machine.home given ∧
          archive.path.components =
            archive.directory.components ++ [.normal (key ++ ".tar.gz")] ∧
          archive.path.name? = some (key ++ ".tar.gz") ∧
          ∀ environment world, archive.CalledOn world
            (workshop.perform (.cache operation key paths given) environment world).world) ∧
    (∀ key savedPaths restoredPaths given saved restored,
      (Action.cache .save key savedPaths given).ready workshop.settings workshop.machine.home =
          .ok saved →
        (Action.cache .restore key restoredPaths given).ready workshop.settings
            workshop.machine.home = .ok restored →
          saved.archive? = restored.archive?) ∧
    ∀ left right : CacheArchive, IsCacheKey left.key → IsCacheKey right.key →
      (left.path.sameAs right.path = true ↔
        left.directory.sameAs right.directory = true ∧ left.key = right.key) := by
  refine ⟨?_, ?_, ?_, fun _ _ => CacheArchive.same_path_iff⟩
  · intro operation key paths given
    constructor
    · rintro ⟨ready, accepted⟩
      exact cache_key_of_ready accepted
    · intro valid
      obtain ⟨ready, accepted, _⟩ := ready_cache_of_key workshop.settings workshop.machine.home
        valid operation paths given
      exact ⟨ready, accepted⟩
  · intro operation key paths given ready accepted
    have valid := cache_key_of_ready accepted
    refine ⟨_, archive_of_ready accepted, CacheArchive.directory_lies_in _ _ _ _,
      CacheArchive.path_components _ valid, CacheArchive.name_of_path _ valid, ?_⟩
    exact CacheArchive.called_on_perform workshop valid operation paths given
  · intro key savedPaths restoredPaths given saved restored savedReady restoredReady
    rw [archive_of_ready savedReady, archive_of_ready restoredReady]

/-- A machine on which every program does nothing and succeeds. -/
def idleWorkshop : Workshop :=
  ⟨.standard, .empty, ⟨"/root", fun _ world => (.ok (.ofTexts "" "" (.exited 0)), world.files)⟩⟩

/-- A key of dots and blanks, in a directory that is named with blanks and a slash. -/
theorem dotted_key_stays_in_directory :
    ∃ ready archive,
      (Action.cache .restore ". v1." "" (some " ../caches/ ")).ready idleWorkshop.settings
        idleWorkshop.machine.home = .ok ready ∧ ready.archive? = some archive ∧
      archive.path.components =
        [.current, .parent, .normal "caches", .normal ". v1..tar.gz"] := by
  obtain ⟨ready, accepted⟩ : ∃ ready,
      (Action.cache .restore ". v1." "" (some " ../caches/ ")).ready idleWorkshop.settings
        idleWorkshop.machine.home = .ok ready := ⟨_, rfl⟩
  obtain ⟨archive, isArchive, lies, child, _⟩ :=
    (archives_stay_in_cache_directory idleWorkshop).2.1 _ _ _ _ ready accepted
  have directory : archive.directory = ⟨"./../caches/"⟩ := by
    rw [lies.named " ../caches/ " rfl (by decide)]
    decide
  have components : FilePath.components ⟨"./../caches/"⟩ =
      [.current, .parent, .normal "caches"] := by decide
  refine ⟨ready, archive, accepted, isArchive, ?_⟩
  rw [child, directory, components]
  rfl

end PipelineWaves
