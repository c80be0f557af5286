import PipelineWaves.Proofs.Program.Quotable
import PipelineWaves.Proofs.Recipe.PathList
import PipelineWaves.Recipe.Perform

/-!
# Path lists of caches

The recipe of a cache and the tables of the generated program hold one list of paths: the
path list of the action in its normal form.
-/

set_option autoImplicit false

namespace PipelineWaves

structure CacheRecipe where
  operation : CacheOperation
  key : String
  paths : List String
  directory : Option String
deriving DecidableEq, Repr

namespace CacheRecipe

def of? : Action → Option CacheRecipe
  | .cache operation key paths directory => some ⟨operation, key, splitPaths paths, directory⟩
  | _ => none

/-- A recipe is ready once its key may name an archive. -/
def ready (recipe : CacheRecipe) (settings : RecipeSettings) (home : String) :
    Except RecipeError ReadyAction := do
  let archive ← CacheArchive.of settings home recipe.key recipe.directory
  match recipe.operation with
  | .save => .ok (.save archive settings.tar recipe.paths)
  | .restore => .ok (.restore archive settings.tar)

theorem of_some {action : Action} {recipe : CacheRecipe} (stands : of? action = some recipe) :
    ∃ operation key paths directory, action = .cache operation key paths directory ∧
      recipe = ⟨operation, key, splitPaths paths, directory⟩ := by
  cases action with
  | cache operation key paths directory =>
      exact ⟨operation, key, paths, directory, rfl, (Option.some.inj stands).symm⟩
  | _ => cases stands

theorem action_ready {action : Action} {recipe : CacheRecipe} (stands : of? action = some recipe)
    (settings : RecipeSettings) (home : String) :
    action.ready settings home = recipe.ready settings home := by
  obtain ⟨operation, key, paths, directory, rfl, rfl⟩ := of_some stands
  rfl

theorem program_saves_iff {action : Action} {key : String} {paths : List String}
    {directory : Option String} : ProgramAction.of action = .cacheSave key paths directory ↔
      of? action = some ⟨.save, key, paths, directory⟩ := by
  constructor
  · intro saves
    cases action with
    | cache operation =>
        cases operation with
        | save =>
            cases saves
            rfl
        | restore => cases saves
    | _ => cases saves
  · intro stands
    obtain ⟨_, _, _, _, rfl, same⟩ := of_some stands
    cases same
    rfl

end CacheRecipe

/-- A program saves for its steps what their recipes save. -/
theorem CompiledPipeline.generated_saves {pipeline : Pipeline} {compiled : CompiledPipeline}
    {program : GeneratedProgram} (compiles : CompiledPipeline.compile pipeline = .ok compiled)
    (generated : compiled.generate = .ok program) :
    ∃ tables, program.main?.bind EmittedTables.read = some tables ∧
      (tables.steps.map ProgramStep.id).Nodup ∧
      ∀ id key paths directory,
        (∃ entry ∈ tables.steps, entry.id = id ∧ entry.action = .cacheSave key paths directory) ↔
        ∃ step ∈ pipeline.steps, step.id = id ∧
          CacheRecipe.of? step.action = some ⟨.save, key, paths, directory⟩ := by
  obtain ⟨tables, _, read, distinct, entries, _⟩ := generated_tables compiles generated
  refine ⟨tables, read, distinct, fun id key paths directory => ?_⟩
  constructor
  · rintro ⟨entry, member, rfl, saves⟩
    obtain ⟨step, isStep, rfl⟩ := List.mem_map.1 (entries.mem_iff.1 member)
    exact ⟨step, isStep, rfl, CacheRecipe.program_saves_iff.1 saves⟩
  · rintro ⟨step, isStep, rfl, stands⟩
    exact ⟨.of pipeline step, entries.mem_iff.2 (List.mem_map_of_mem isStep), rfl,
      CacheRecipe.program_saves_iff.2 stands⟩

/-- Exactly the texts that hold a list of paths between their commas, with blanks around them and
blank pieces anywhere, are read as that list, so each path read is in normal form. The recipe of
a cache holds the list that is read, is run with it, and the program saves the same list. -/
theorem path_lists_have_normal_form :
    (∀ text paths, splitPaths text = paths ↔ WritesPaths text paths) ∧
    (∀ text, ∀ path ∈ splitPaths text, IsListedPath path) ∧
    (∀ paths : List String, (∀ path ∈ paths, IsListedPath path) →
      splitPaths (",".intercalate paths) = paths) ∧
    (∀ action recipe, CacheRecipe.of? action = some recipe →
      ∀ settings home, action.ready settings home = recipe.ready settings home) ∧
    ∀ pipeline compiled program, CompiledPipeline.compile pipeline = .ok compiled →
      compiled.generate = .ok program →
      ∃ tables, program.main?.bind EmittedTables.read = some tables ∧
        (tables.steps.map ProgramStep.id).Nodup ∧
        ∀ id key paths directory,
          (∃ entry ∈ tables.steps, entry.id = id ∧ entry.action = .cacheSave key paths directory) ↔
          ∃ step ∈ pipeline.steps, step.id = id ∧
            CacheRecipe.of? step.action = some ⟨.save, key, paths, directory⟩ :=
  ⟨fun _ _ => split_paths_iff, split_paths_listed, fun _ => split_paths_join,
    fun _ _ => CacheRecipe.action_ready,
    fun _ _ _ compiles generated => CompiledPipeline.generated_saves compiles generated⟩

def savingStep : Step :=
  { id := "keep"
    name := "Keep"
    action := .cache .save "deps" " a,\t,b c ,,\u3000\"d\"" none
    dependsOn := []
    environment := {}
    condition := none }

def savingPipeline : Pipeline :=
  { name := "saving", description := "", steps := [savingStep], environment := {} }

theorem saving_pipeline_saves_paths :
    splitPaths " a,\t,b c ,,\u3000\"d\"" = ["a", "b c", "\"d\""] ∧
    splitPaths "a,b c,\"d\"" = ["a", "b c", "\"d\""] ∧
    ∃ compiled program tables, CompiledPipeline.compile savingPipeline = .ok compiled ∧
      compiled.generate = .ok program ∧ program.main?.bind EmittedTables.read = some tables ∧
      ∃ entry ∈ tables.steps, entry.id = "keep" ∧
        entry.action = .cacheSave "deps" ["a", "b c", "\"d\""] none := by
  obtain ⟨reads, _, joins, _, saves⟩ := path_lists_have_normal_form
  have pads : PadsPaths [" a", "\t", "b c ", "", "\u3000\"d\""] ["a", "b c", "\"d\""] :=
    .of_pieces (by decide)
  have split := (reads " a,\t,b c ,,\u3000\"d\"" _).2 ⟨_, by decide, pads, by decide⟩
  have evaluated : (CompiledPipeline.compile savingPipeline).toOption.map
      (fun compiled => compiled.quotedFields.any fun field => field.HasNul) = some false := by
    decide +kernel
  obtain ⟨compiled, found, free⟩ := Option.map_eq_some_iff.1 evaluated
  have compiles := except_ok_of_to_option found
  obtain ⟨program, generated⟩ :=
    (CompiledPipeline.generate_quotes compiles).ok_iff.2 (by simpa using free)
  obtain ⟨tables, read, _, saved⟩ := saves _ _ _ compiles generated
  refine ⟨split, joins ["a", "b c", "\"d\""] (by decide), compiled, program, tables, compiles,
    generated, read, ?_⟩
  refine (saved "keep" "deps" _ none).2 ⟨savingStep, List.mem_cons_self, rfl, ?_⟩
  rw [← split]
  rfl

end PipelineWaves
