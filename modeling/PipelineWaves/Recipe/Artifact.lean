import PipelineWaves.Files.Call
import PipelineWaves.Recipe.Error

/-!
# Copying artifacts

A file or a directory with everything in it is copied to a place that is made
if it is missing. Links are followed. A file copied onto a directory lands
inside it under its own name. Every step down makes the path of the source
longer, and no path may be longer than the system allows, so the copy of a
directory into itself ends as well.
-/

set_option autoImplicit false

namespace PipelineWaves

namespace Artifact

abbrev Copying (Result : Type) : Type := Attempt Files RecipeError Result

def reportedAt {Result : Type} (path : FilePath) (call : FileCall Result) : Copying Result :=
  call.mapFailure fun fault => .filesystem path fault.text

/-- Where a file goes: into a directory, or to the very path. -/
def targetOf (files : Files) (source destination : FilePath) : FilePath :=
  match source.name? with
  | some name => if files.isDirectory destination then destination.join ⟨name⟩ else destination
  | none => destination

def copyFile (source destination : FilePath) : Copying Nat := do
  let files ← get
  let target := targetOf files source destination
  match target.parent? with
  | some parent => reportedAt parent (Files.createDirectories parent)
  | none => pure ()
  reportedAt target (Files.copyFile source target)
  return 1

/-- Copies the named entries one after the other and adds up the files copied. -/
def copyEntries (copy : FilePath → FilePath → Copying Nat) (source destination : FilePath) :
    List String → Copying Nat
  | [] => return 0
  | name :: rest => do
      let copied ← copy (source.join ⟨name⟩) (destination.join ⟨name⟩)
      let others ← copyEntries copy source destination rest
      return copied + others

/-- Copies a tree that is at most so many levels deep. -/
def copyWithin : Nat → FilePath → FilePath → Copying Nat
  | 0, source, _ => throw (.filesystem source FileFault.nameTooLong.text)
  | depth + 1, source, destination => do
      let (_, node) ← reportedAt source (Attempt.reading fun files => files.node? source)
      if node.isDirectory then
        reportedAt destination (Files.createDirectories destination)
        let names ← reportedAt source (Attempt.reading fun files => files.names source)
        copyEntries (copyWithin depth) source destination names
      else copyFile source destination

def copy (source destination : FilePath) : Copying Nat :=
  copyWithin (Walk.longestPath + 1) source destination

end Artifact

end PipelineWaves
