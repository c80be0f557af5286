import PipelineWaves.Recipe.Process
import PipelineWaves.Recipe.Settings

/-!
# Caches

A cache saves some paths of the workspace under a key and restores them later.
Every key names one archive, directly inside the cache directory. Saving leaves
missing paths out and does nothing when none is left; restoring does nothing
when there is no archive.
-/

set_option autoImplicit false

namespace PipelineWaves

structure CacheArchive where
  directory : FilePath
  key : String
deriving DecidableEq, Repr

namespace CacheArchive

def path (archive : CacheArchive) : FilePath := archive.directory.join ⟨archive.key ++ ".tar.gz"⟩

/-- The cache directory that a step names, or the standard one. -/
def directoryOf (settings : RecipeSettings) (home : String) (given : Option String) : FilePath :=
  match given.map Text.trimBlank with
  | some directory =>
      if directory = "" then settings.defaultCacheDirectory home
      else settings.resolve ⟨directory⟩
  | none => settings.defaultCacheDirectory home

/-- The archive for a key that may name one. -/
def of (settings : RecipeSettings) (home key : String) (given : Option String) :
    Except RecipeError CacheArchive := do
  validateKey key
  .ok ⟨directoryOf settings home given, key⟩

def save (archive : CacheArchive) (tar : String) (paths : List String) (place : StepPlace) :
    Doing Unit := do
  let files := (← get).files
  let found := paths.filter fun path => files.isPresent (place.directory.join ⟨path⟩)
  if found.isEmpty then pure ()
  else
    Doing.call archive.directory (Files.createDirectories archive.directory)
    place.run none tar (["-czf", archive.path.text, "-C", place.directory.text] ++ found)

def restore (archive : CacheArchive) (tar : String) (place : StepPlace) : Doing Unit := do
  if (← get).files.isFile archive.path then
    Doing.call place.directory (Files.createDirectories place.directory)
    place.run none tar ["-xzf", archive.path.text, "-C", place.directory.text]
  else pure ()

end CacheArchive

end PipelineWaves
