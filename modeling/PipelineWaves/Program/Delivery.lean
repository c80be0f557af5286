import PipelineWaves.Attempt
import PipelineWaves.Files.Call
import PipelineWaves.Program.Written
import PipelineWaves.Run.Identifier

/-!
# Delivering programs

The files of a program reach their directory all together or not at all. They
are staged beside the directory first. A new directory is the staging directory
under its new name; in an existing one the files are replaced one by one, and
what they replace is kept until all of them are in place, so that a failure puts
everything back. The staging directory never stays.

The calls on files are a parameter: delivery is the same whichever of them fail.
-/

set_option autoImplicit false

namespace PipelineWaves

/-- The calls on files that a delivery needs. -/
structure FileCalls (State : Type) where
  isPresent : State → FilePath → Bool
  isFile : State → FilePath → Bool
  createDirectories : FilePath → Attempt State FileFault Unit
  writeText : FilePath → String → Attempt State FileFault Unit
  rename : FilePath → FilePath → Attempt State FileFault Unit
  removeFile : FilePath → Attempt State FileFault Unit
  removeTree : FilePath → Attempt State FileFault Unit

def Files.calls : FileCalls Files where
  isPresent := Files.isPresent
  isFile := Files.isFile
  createDirectories := Files.createDirectories
  writeText := Files.writeText
  rename := Files.rename
  removeFile := Files.removeFile
  removeTree := Files.removeTree

namespace Delivery

variable {State : Type}

abbrev Step (State Result : Type) : Type := Attempt State GenerationError Result

def reportedAt (path : FilePath) (call : Attempt State FileFault Unit) : Step State Unit :=
  call.mapFailure fun fault => .notWritten path fault.text

def createParent (calls : FileCalls State) (path : FilePath) : Step State Unit :=
  match path.parent? with
  | some parent => reportedAt parent (calls.createDirectories parent)
  | none => pure ()

def stage (calls : FileCalls State) (staging : FilePath) : List ProgramFile → Step State Unit
  | [] => pure ()
  | file :: rest => do
      let path := staging.join file.path
      createParent calls path
      reportedAt path (calls.writeText path file.contents)
      stage calls staging rest

/-- A file put in place, with the path of what it replaced if it replaced anything. -/
structure Replaced where
  target : FilePath
  backup : Option FilePath
deriving DecidableEq, Repr

def restore (calls : FileCalls State) (replaced : Replaced) : Step State Unit := do
  (calls.removeFile replaced.target).ignoringFailure
  match replaced.backup with
  | some backup => (calls.rename backup replaced.target).ignoringFailure
  | none => pure ()

/-- Moves the file at the target out of the way, if there is one. -/
def park (calls : FileCalls State) (target backup : FilePath) : Step State Replaced := do
  if calls.isFile (← get) target then
    createParent calls backup
    reportedAt target (calls.rename target backup)
    return ⟨target, some backup⟩
  else return ⟨target, none⟩

def replace (calls : FileCalls State) (staged target backup : FilePath) : Step State Replaced := do
  createParent calls target
  let parked ← park calls target backup
  match ← (reportedAt target (calls.rename staged target)).tried with
  | .ok _ => return parked
  | .error error =>
      match parked.backup with
      | some backup => (calls.rename backup target).ignoringFailure
      | none => pure ()
      throw error

def backupName : FilePath := ⟨".previous"⟩

/-- Replaces the files in order; `done` holds what is replaced already, the latest first. -/
def replaceAll (calls : FileCalls State) (staging directory : FilePath) (done : List Replaced) :
    List ProgramFile → Step State Unit
  | [] => pure ()
  | file :: rest => do
      let staged := staging.join file.path
      let target := directory.join file.path
      let backup := (staging.join backupName).join file.path
      match ← (replace calls staged target backup).tried with
      | .ok replaced => replaceAll calls staging directory (replaced :: done) rest
      | .error error =>
          done.forM (restore calls)
          throw error

def stagingPath (parent directory : FilePath) (identifier : RunIdentifier) : FilePath :=
  let name := directory.name?.getD "generated"
  parent.join ⟨s!".{name}.staging-{identifier.text}"⟩

def parentOf (directory : FilePath) : FilePath :=
  match directory.parent? with
  | some parent => if parent.text = "" then ⟨"."⟩ else parent
  | none => ⟨"."⟩

def install (calls : FileCalls State) (staging directory : FilePath)
    (files : List ProgramFile) : Step State Unit := do
  stage calls staging files
  if calls.isPresent (← get) directory then replaceAll calls staging directory [] files
  else reportedAt directory (calls.rename staging directory)

end Delivery

namespace GeneratedProgram

/-- Writes all files of a program into a directory, or leaves the directory as it is. -/
def deliver {State : Type} (program : GeneratedProgram) (calls : FileCalls State)
    (identifier : RunIdentifier) (directory : FilePath) :
    Attempt State GenerationError Unit := do
  let parent := Delivery.parentOf directory
  Delivery.reportedAt parent (calls.createDirectories parent)
  let staging := Delivery.stagingPath parent directory identifier
  let result ← (Delivery.install calls staging directory program.files).tried
  (calls.removeTree staging).ignoringFailure
  match result with
  | .ok _ => pure ()
  | .error error => throw error

end GeneratedProgram

end PipelineWaves
