import PipelineWaves.FilePath

/-!
# Recipe settings

The programs that recipes call and the directory against which they resolve
paths. Caches lie under the home directory unless a step names another place.
-/

set_option autoImplicit false

namespace PipelineWaves

def applicationName : String := "stepforge"

/-- What stands before the type of a custom action in the name of its program. -/
def handlerPrefix : String := "stepforge-handler-"

structure RecipeSettings where
  workspace : FilePath
  toolchain : String
  git : String
  tar : String
  applicationName : String
deriving DecidableEq, Repr

namespace RecipeSettings

def standard : RecipeSettings :=
  { workspace := ⟨"."⟩
    toolchain := "zig"
    git := "git"
    tar := "tar"
    applicationName := PipelineWaves.applicationName }

def resolve (settings : RecipeSettings) (path : FilePath) : FilePath :=
  settings.workspace.join path

/-- The cache directory below a home directory; without a home it lies in the workspace. -/
def defaultCacheDirectory (settings : RecipeSettings) (home : String) : FilePath :=
  let base := if home = "" then settings.workspace else ⟨home⟩
  (base.join ⟨".cache"⟩).join ⟨settings.applicationName⟩

end RecipeSettings

end PipelineWaves
