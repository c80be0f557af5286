import PipelineWaves.Environment
import PipelineWaves.Files.Call
import PipelineWaves.Text.Bytes

/-!
# Utilities

The small programs of the sandbox are functions from a call to a result: what
they write, how they end and the files after them.
-/

set_option autoImplicit false

namespace PipelineWaves.Sandbox

structure UtilityCall where
  name : String
  arguments : List String
  files : Files
  input : ByteArray
  environment : Environment

structure UtilityResult where
  files : Files
  out : ByteArray
  err : ByteArray
  code : Nat
  /-- Whether the standard input was read to its end. -/
  readsInput : Bool
  /-- The signal that ended the program, if it did not end by itself. -/
  signal : Option Nat

structure Working where
  files : Files
  out : ByteArray
  err : ByteArray
  code : Nat
  readsInput : Bool

namespace Working

def start (call : UtilityCall) : Working :=
  ⟨call.files, ByteArray.empty, ByteArray.empty, 0, false⟩

def write (working : Working) (text : String) : Working :=
  { working with out := working.out ++ text.toUTF8 }

def writeLine (working : Working) (text : String) : Working := working.write (text ++ "\n")

def writeBytes (working : Working) (bytes : ByteArray) : Working :=
  { working with out := working.out ++ bytes }

/-- Complains on the error output; the call will end with the given code. -/
def complain (working : Working) (code : Nat) (message : String) : Working :=
  { working with
    err := working.err ++ (message ++ "\n").toUTF8
    code := if working.code < code then code else working.code }

def ending (working : Working) (code : Nat) : Working := { working with code }

def readingInput (working : Working) : Working := { working with readsInput := true }

def result (working : Working) : UtilityResult :=
  ⟨working.files, working.out, working.err, working.code, working.readsInput, none⟩

def call (working : Working) (action : FileCall Unit) (complaint : FileFault → String) : Working :=
  match action.outcome working.files with
  | (.ok _, files) => { working with files }
  | (.error fault, files) => complain { working with files } 1 (complaint fault)

end Working

namespace UtilityCall

/-- Whether the locale of a call has typographic quotes. -/
def hasFineQuotes (call : UtilityCall) : Bool :=
  let given (name : String) : Option String :=
    (call.environment.get? name).filter fun value => value ≠ ""
  let locale := (given "LC_ALL").orElse fun _ => (given "LC_CTYPE").orElse fun _ => given "LANG"
  match locale with
  | some locale => (locale.toUpper.endsWith "UTF-8") || (locale.toUpper.endsWith "UTF8")
  | none => false

def quoted (call : UtilityCall) (text : String) : String :=
  if call.hasFineQuotes then "‘" ++ text ++ "’" else "'" ++ text ++ "'"

/-- Splits single-letter options from operands; two hyphens end the options. -/
def splitOptions (isOption : Char → Bool) : List String → List Char × List String
  | [] => ([], [])
  | "--" :: rest => ([], rest)
  | word :: rest =>
      match word.toList with
      | '-' :: first :: letters =>
          if (first :: letters).all isOption then
            let (options, operands) := splitOptions isOption rest
            (first :: letters ++ options, operands)
          else
            let (options, operands) := splitOptions isOption rest
            (options, word :: operands)
      | _ =>
          let (options, operands) := splitOptions isOption rest
          (options, word :: operands)

/-- The bytes of an operand; a hyphen stands for the standard input. -/
def bytesOf (call : UtilityCall) (working : Working) (operand : String) :
    Except FileFault (ByteArray × Bool) :=
  if operand = "-" then .ok (call.input, true)
  else if operand = "/dev/null" then .ok (ByteArray.empty, false)
  else if operand = "/dev/stdin" then .ok (call.input, true)
  else (working.files.bytes ⟨operand⟩).map fun bytes => (bytes, false)

/-- Goes through the operands, or through the standard input when there are none. -/
def forEachInput (call : UtilityCall) (operands : List String) (working : Working)
    (complaint : String → FileFault → String) (step : Working → String → ByteArray → Working) :
    Working :=
  let operands := if operands.isEmpty then ["-"] else operands
  operands.foldl
    (fun working operand =>
      match call.bytesOf working operand with
      | .ok (bytes, isInput) =>
          step (if isInput then working.readingInput else working) operand bytes
      | .error fault => working.complain 1 (complaint operand fault))
    working

def plainComplaint (call : UtilityCall) (operand : String) (fault : FileFault) : String :=
  s!"{call.name}: {operand}: {fault.reason}"

end UtilityCall

abbrev Utility : Type := UtilityCall → UtilityResult

/-- The lines of bytes, each without the line feed that ends it. -/
def linesOf (bytes : ByteArray) : List String :=
  let pieces := (Text.ofBytes bytes).splitOn "\n"
  if pieces.getLast? = some "" then pieces.dropLast else pieces

end PipelineWaves.Sandbox
