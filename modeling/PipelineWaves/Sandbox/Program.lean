import PipelineWaves.Sandbox.Archive
import PipelineWaves.Sandbox.Arithmetic

/-!
# Installed programs

Programs are executable files. The file of a built-in program begins with a mark and names the
program; other files may name an interpreter in their first line. Looking a program up follows
the search path and tells why it cannot be run. The programs that only write are here too.
-/

set_option autoImplicit false

namespace PipelineWaves.Sandbox

namespace Printing

def isOctal (character : Char) : Bool := '0' ≤ character && character ≤ '7'

def octalValue (digits : List Char) : Nat :=
  digits.foldl (fun value digit => value * 8 + (digit.toNat - '0'.toNat)) 0

def oneByte (value : Nat) : ByteArray := ⟨#[UInt8.ofNat value]⟩

def bytesOf (characters : List Char) : ByteArray := (String.ofList characters).toUTF8

def escapedChar? : Char → Option Char
  | 'a' => some '\x07'
  | 'b' => some '\x08'
  | 'e' => some '\x1b'
  | 'f' => some '\x0c'
  | 'n' => some '\n'
  | 'r' => some '\r'
  | 't' => some '\t'
  | 'v' => some '\x0b'
  | '\\' => some '\\'
  | _ => none

/-- What an escape writes, the characters it takes, and whether it ends all output. -/
structure Escape where
  bytes : ByteArray
  taken : Nat
  stops : Bool

/-- The escape behind a backslash; `zeroFirst` wants a zero before octal digits. -/
def escapeAt (zeroFirst : Bool) (characters : List Char) : Escape :=
  match characters with
  | [] => ⟨bytesOf ['\\'], 0, false⟩
  | 'c' :: _ =>
      if zeroFirst then ⟨ByteArray.empty, 1, true⟩ else ⟨bytesOf ['\\', 'c'], 1, false⟩
  | first :: rest =>
      if zeroFirst && first = '0' then
        let digits := (rest.takeWhile isOctal).take 3
        ⟨oneByte (octalValue digits), digits.length + 1, false⟩
      else if !zeroFirst && isOctal first then
        let digits := ((first :: rest).takeWhile isOctal).take 3
        ⟨oneByte (octalValue digits), digits.length, false⟩
      else
        match escapedChar? first with
        | some character => ⟨bytesOf [character], 1, false⟩
        | none => ⟨bytesOf ['\\', first], 1, false⟩

/-- A text with its escapes resolved; `skip` characters belong to the last escape. -/
def resolvedFrom (skip : Nat) (done : ByteArray) : List Char → ByteArray × Bool
  | [] => (done, false)
  | character :: rest =>
      match skip with
      | skip + 1 => resolvedFrom skip done rest
      | 0 =>
          if character = '\\' then
            let escape := escapeAt true rest
            if escape.stops then (done, true)
            else resolvedFrom escape.taken (done ++ escape.bytes) rest
          else resolvedFrom 0 (done ++ bytesOf [character]) rest

def resolved (text : String) : ByteArray × Bool := resolvedFrom 0 ByteArray.empty text.toList

def shellEcho (call : UtilityCall) : UtilityResult :=
  let (quiet, words) :=
    match call.arguments with
    | "-n" :: rest => (true, rest)
    | other => (false, other)
  let (bytes, stopped) := resolved (" ".intercalate words)
  let working := (Working.start call).writeBytes bytes
  (if quiet || stopped then working else working.write "\n").result

def isEchoOption (word : String) : Bool :=
  match word.toList with
  | '-' :: first :: rest => (first :: rest).all fun c => c = 'n' || c = 'e' || c = 'E'
  | _ => false

/-- The `echo` that is a program: escapes are resolved only on demand. -/
def echo (call : UtilityCall) : UtilityResult :=
  let options := call.arguments.takeWhile isEchoOption
  let letters := options.flatMap String.toList
  let words := call.arguments.drop options.length
  let resolves := (letters.filter fun c => c = 'e' || c = 'E').getLast? = some 'e'
  let joined := " ".intercalate words
  let (bytes, stopped) := if resolves then resolved joined else (joined.toUTF8, false)
  let working := (Working.start call).writeBytes bytes
  (if letters.contains 'n' || stopped then working else working.write "\n").result

structure Directive where
  flags : List Char
  width : Nat
  precision : Option Nat
  conversion : Char

def number (digits : List Char) : Nat := (String.ofList digits).toNat?.getD 0

/-- A directive behind a percent sign, and the characters it takes. -/
def directiveAt (characters : List Char) : Option (Directive × Nat) :=
  let flags := characters.takeWhile fun c => ['-', '0', '+', ' ', '#'].contains c
  let rest := characters.drop flags.length
  let width := rest.takeWhile Char.isDigit
  let rest := rest.drop width.length
  let (precision, dotLength, rest) :=
    match rest with
    | '.' :: rest =>
        let digits := rest.takeWhile Char.isDigit
        (some (number digits), digits.length + 1, rest.drop digits.length)
    | rest => (none, 0, rest)
  match rest with
  | [] => none
  | conversion :: _ =>
      some (⟨flags, number width, precision, conversion⟩,
        flags.length + width.length + dotLength + 1)

def padded (directive : Directive) (text : String) : String :=
  let missing := directive.width - text.length
  let blanks := String.ofList (List.replicate missing ' ')
  if directive.flags.contains '-' then text ++ blanks else blanks ++ text

def paddedNumber (directive : Directive) (negative : Bool) (digits : String) : String :=
  let zeros (count : Nat) : String := String.ofList (List.replicate count '0')
  let digits := zeros (directive.precision.getD 0 - digits.length) ++ digits
  let sign :=
    if negative then "-"
    else if directive.flags.contains '+' then "+"
    else if directive.flags.contains ' ' then " "
    else ""
  if directive.flags.contains '0' && !directive.flags.contains '-' then
    sign ++ zeros (directive.width - digits.length - sign.length) ++ digits
  else padded directive (sign ++ digits)

/-- The number that an argument stands for, and what is wrong with the argument. -/
def argumentNumber (text : String) : Int × Option String :=
  match text.toList with
  | '\'' :: first :: _ => (first.toNat, none)
  | '"' :: first :: _ => (first.toNat, none)
  | [] => (0, none)
  | characters =>
      match Arithmetic.signedAt? characters with
      | some (value, []) => (value, none)
      | some (value, _) => (value, some "not completely converted")
      | none => (0, some "expected numeric value")

def inBase (base : Nat) (value : Int) : String :=
  String.ofList (Nat.toDigits base (value % Int.pow 2 64).toNat)

structure Filling where
  bytes : ByteArray
  arguments : List String
  usedArgument : Bool
  /-- What is to be said, each with the code that it ends the call with. -/
  complaints : List (Nat × String)
  stopped : Bool

namespace Filling

def complain (filling : Filling) (code : Nat) (message : String) : Filling :=
  { filling with complaints := filling.complaints ++ [(code, message)] }

def add (filling : Filling) (text : String) : Filling :=
  { filling with bytes := filling.bytes ++ text.toUTF8 }

def argument (filling : Filling) : String × Filling :=
  match filling.arguments with
  | [] => ("", { filling with usedArgument := true })
  | first :: rest => (first, { filling with arguments := rest, usedArgument := true })

end Filling

def integer (directive : Directive) (value : Int) : String :=
  match directive.conversion with
  | 'x' => paddedNumber directive false (inBase 16 value)
  | 'X' => paddedNumber directive false (inBase 16 value).toUpper
  | 'o' => paddedNumber directive false (inBase 8 value)
  | 'u' => paddedNumber directive false (inBase 10 value)
  | _ => paddedNumber directive (value < 0) (toString value.natAbs)

def fill (filling : Filling) (directive : Directive) : Filling :=
  if directive.conversion = '%' then filling.add "%"
  else
    let (argument, filling) := filling.argument
    let cut (text : String) : String :=
      match directive.precision with
      | some most => String.ofList (text.toList.take most)
      | none => text
    if directive.conversion = 's' then filling.add (padded directive (cut argument))
    else if directive.conversion = 'c' then
      filling.add (padded directive (String.ofList (argument.toList.take 1)))
    else if directive.conversion = 'b' then
      let (bytes, stopped) := resolved argument
      { filling with bytes := filling.bytes ++ bytes, stopped }
    else if ['d', 'i', 'u', 'x', 'X', 'o'].contains directive.conversion then
      let (value, complaint) := argumentNumber argument
      let filling := filling.add (integer directive value)
      match complaint with
      | none => filling
      | some complaint => filling.complain 1 s!"{argument}: {complaint}"
    else
      { filling.complain 2 s!"%{directive.conversion}: invalid directive" with stopped := true }

/-- Goes once through a format; `skip` characters belong to the last directive. -/
def formatOnce (skip : Nat) (filling : Filling) : List Char → Filling
  | [] => filling
  | character :: rest =>
      if filling.stopped then filling
      else
        match skip with
        | skip + 1 => formatOnce skip filling rest
        | 0 =>
            if character = '\\' then
              let escape := escapeAt false rest
              formatOnce escape.taken { filling with bytes := filling.bytes ++ escape.bytes } rest
            else if character = '%' then
              match directiveAt rest with
              | some (directive, taken) => formatOnce taken (fill filling directive) rest
              | none => { filling.complain 2 "missing format character" with stopped := true }
            else formatOnce 0 (filling.add (String.ofList [character])) rest

def formatAgain (format : List Char) : Nat → Filling → Filling
  | 0, filling => filling
  | times + 1, filling =>
      let filling := formatOnce 0 { filling with usedArgument := false } format
      if filling.arguments.isEmpty || !filling.usedArgument || filling.stopped then filling
      else formatAgain format times filling

def writeFormat (call : UtilityCall) (format : String) (arguments : List String) : UtilityResult :=
  let filling := formatAgain format.toList (arguments.length + 1)
    ⟨ByteArray.empty, arguments, false, [], false⟩
  let complain (working : Working) (complaint : Nat × String) : Working :=
    working.complain complaint.1 s!"{call.name}: {complaint.2}"
  let working := (Working.start call).writeBytes filling.bytes
  (filling.complaints.foldl complain working).result

def printf (call : UtilityCall) : UtilityResult :=
  let refuse (message : String) : UtilityResult :=
    ((Working.start call).complain 2 s!"{call.name}: {message}").result
  match call.arguments with
  | [] | ["--"] => refuse "usage: printf format [arg ...]"
  | "--" :: format :: arguments => writeFormat call format arguments
  | format :: arguments =>
      match format.toList with
      | '-' :: letter :: _ => refuse s!"Illegal option -{letter}"
      | _ => writeFormat call format arguments

end Printing

namespace Program

def succeed (call : UtilityCall) : UtilityResult := (Working.start call).result

def failing (call : UtilityCall) : UtilityResult := ((Working.start call).ending 1).result

def printenv (call : UtilityCall) : UtilityResult :=
  let working := Working.start call
  match call.arguments with
  | [] =>
      (call.environment.entries.foldl
        (fun working entry => working.writeLine (entry.1 ++ "=" ++ entry.2)) working).result
  | names =>
      (names.foldl
        (fun working name =>
          match call.environment.get? name with
          | some value => working.writeLine value
          | none => working.ending 1) working).result

def absoluteText (location : Location) : String := "/" ++ "/".intercalate location

def pwd (call : UtilityCall) : UtilityResult :=
  ((Working.start call).writeLine (absoluteText call.files.here)).result

def utilities : List (String × Utility) :=
  [("true", succeed), ("false", failing), ("sleep", succeed), ("echo", Printing.echo),
    ("printf", Printing.printf), ("test", FileUtility.test), ("[", FileUtility.test),
    ("pwd", pwd), ("printenv", printenv), ("cat", TextUtility.cat), ("grep", TextUtility.grep),
    ("tr", TextUtility.tr), ("head", TextUtility.head), ("tail", TextUtility.tail),
    ("wc", TextUtility.wc), ("sort", TextUtility.sort), ("mkdir", FileUtility.mkdir),
    ("rm", FileUtility.rm), ("cp", FileUtility.cp), ("mv", FileUtility.mv),
    ("touch", FileUtility.touch), ("chmod", FileUtility.chmod), ("ls", FileUtility.ls),
    ("tar", Archive.tar)]

def shellNames : List String := ["sh", "dash"]

def names : List String := utilities.map Prod.fst ++ shellNames ++ ["env"]

/-- The bytes at the front of a built-in program's file. -/
def mark : List UInt8 := [0x7f, 0x45, 0x4c, 0x46]

def image (name : String) : FileNode :=
  .file (⟨mark.toArray⟩ ++ name.toUTF8) true

def imageName? (contents : ByteArray) : Option String :=
  if contents.toList.take 4 = mark then
    some (Text.ofBytes ⟨(contents.toList.drop 4).toArray⟩)
  else none

/-- Puts the built-in programs where they are looked for. -/
def install (files : Files) : Files :=
  let programs : FileNode := .directory (names.map fun name => (name, image name))
  let files := files.put ["usr"] (.directory [("bin", programs)])
  let files := files.put ["tmp"] .emptyDirectory
  files.put ["bin"] (.link "usr/bin")

def searchPath : String := "/usr/local/sbin:/usr/local/bin:/usr/sbin:/usr/bin:/sbin:/bin"

def runnable (files : Files) (path : FilePath) : Except FileFault Unit :=
  match files.node? path with
  | .error fault => .error fault
  | .ok (_, .file _ true) => .ok ()
  | .ok _ => .error .denied

def isMissing (fault : FileFault) : Bool := fault = .missing || fault = .notADirectory

/-- Goes through the directories of a search path. -/
def search (files : Files) (command : String) (fault : FileFault) :
    List String → Except FileFault FilePath
  | [] => .error fault
  | directory :: rest =>
      let path := (FilePath.mk directory).join ⟨command⟩
      match runnable files path with
      | .ok _ => .ok path
      | .error found => search files command (if isMissing found then fault else .denied) rest

/-- The file of a program; a name with a slash is a path already. -/
def locate (files : Files) (path command : String) : Except FileFault FilePath :=
  if command = "" then .error .missing
  else if command.toList.contains '/' then
    (runnable files ⟨command⟩).map fun _ => ⟨command⟩
  else search files command .missing (path.splitOn ":")

/-- A built-in program with its arguments. -/
structure Loaded where
  program : String
  arguments : List String
deriving DecidableEq, Repr

/-- The interpreter in the first line of a script and what stands behind it. -/
def interpreter? (contents : ByteArray) : Option (String × Option String) :=
  match contents.toList with
  | 0x23 :: 0x21 :: rest =>
      let line := (Text.ofBytes ⟨(rest.takeWhile fun byte => byte ≠ 0x0a).toArray⟩).toList
      let isBlank (character : Char) : Bool := character = ' ' || character = '\t'
      let words := line.dropWhile isBlank
      let name := words.takeWhile fun character => !isBlank character
      let behind := (words.drop name.length).dropWhile isBlank
      let argument := (behind.reverse.dropWhile isBlank).reverse
      some (String.ofList name,
        if argument.isEmpty then none else some (String.ofList argument))
  | _ => none

/-- Follows interpreters until a built-in program is reached. -/
def load (files : Files) : Nat → FilePath → List String → Except FileFault Loaded
  | 0, _, _ => .error .tooManyLinks
  | depth + 1, path, arguments => do
      runnable files path
      let contents ← files.bytes path
      match imageName? contents with
      | some program => .ok ⟨program, arguments⟩
      | none =>
          match interpreter? contents with
          | some ("", _) => .error .notExecutable
          | some (interpreter, argument) =>
              load files depth ⟨interpreter⟩ (argument.toList ++ [path.text] ++ arguments)
          | none => .error .notExecutable

def mostInterpreters : Nat := 5

def resolve (files : Files) (path command : String) (arguments : List String) :
    Except FileFault Loaded := do
  let file ← locate files path command
  load files mostInterpreters file arguments

end Program

end PipelineWaves.Sandbox
