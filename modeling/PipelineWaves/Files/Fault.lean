/-!
# Faults of file calls

Why the system refuses a call on files. Each fault has the text by which the
system reports it, with its number where it has one.
-/

set_option autoImplicit false

namespace PipelineWaves

inductive FileFault where
  | missing
  | notExecutable
  | denied
  | busy
  | exists
  | notADirectory
  | isADirectory
  | invalid
  | nameTooLong
  | notEmpty
  | tooManyLinks
  | nulInPath
  | notRegular
  | notText
deriving DecidableEq, Repr

namespace FileFault

def reason : FileFault → String
  | missing => "No such file or directory"
  | notExecutable => "Exec format error"
  | denied => "Permission denied"
  | busy => "Device or resource busy"
  | .exists => "File exists"
  | notADirectory => "Not a directory"
  | isADirectory => "Is a directory"
  | invalid => "Invalid argument"
  | nameTooLong => "File name too long"
  | notEmpty => "Directory not empty"
  | tooManyLinks => "Too many levels of symbolic links"
  | nulInPath => "file name contained an unexpected NUL byte"
  | notRegular => "the source path is neither a regular file nor a symlink to a regular file"
  | notText => "stream did not contain valid UTF-8"

/-- The number of the system's error; checks made before any call have none. -/
def number? : FileFault → Option Nat
  | missing => some 2
  | notExecutable => some 8
  | denied => some 13
  | busy => some 16
  | .exists => some 17
  | notADirectory => some 20
  | isADirectory => some 21
  | invalid => some 22
  | nameTooLong => some 36
  | notEmpty => some 39
  | tooManyLinks => some 40
  | nulInPath => none
  | notRegular => none
  | notText => none

def text (fault : FileFault) : String :=
  match fault.number? with
  | some number => s!"{fault.reason} (os error {number})"
  | none => fault.reason

end FileFault

end PipelineWaves
