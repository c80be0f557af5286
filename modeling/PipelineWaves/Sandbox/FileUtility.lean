import PipelineWaves.Sandbox.TextUtility

/-!
# Utilities for files

Programs that list, make, copy, move and remove files, and the program that
tests conditions about files and texts.
-/

set_option autoImplicit false

namespace PipelineWaves.Sandbox

namespace FileUtility

def options (letters : String) (call : UtilityCall) : List Char × List String :=
  UtilityCall.splitOptions (fun c => letters.toList.contains c) call.arguments

def sortedNames (names : List String) : List String :=
  names.mergeSort fun left right => left ≤ right

/-- Does something for each operand, or complains that there is none. -/
def forEach (call : UtilityCall) (operands : List String)
    (step : Working → String → Working) : UtilityResult :=
  if operands.isEmpty then
    ((Working.start call).complain 1 s!"{call.name}: missing operand").result
  else (operands.foldl step (Working.start call)).result

def mkdir (call : UtilityCall) : UtilityResult :=
  let (options, operands) := options "pv" call
  forEach call operands fun working operand =>
    let action : FileCall Unit :=
      if options.contains 'p' then Files.createDirectories ⟨operand⟩
      else Files.createDirectory ⟨operand⟩
    working.call action fun fault =>
      s!"mkdir: cannot create directory {call.quoted operand}: {fault.reason}"

def rm (call : UtilityCall) : UtilityResult :=
  let (options, operands) := options "rRfdv" call
  let recursive := options.contains 'r' || options.contains 'R'
  let forced := options.contains 'f'
  if operands.isEmpty && forced then (Working.start call).result
  else
    forEach call operands fun working operand =>
      let path : FilePath := ⟨operand⟩
      let complaint (reason : String) : String := s!"rm: cannot remove '{operand}': {reason}"
      match working.files.ownLocation path with
      | .error .missing =>
          if forced then working else working.complain 1 (complaint FileFault.missing.reason)
      | .error fault => working.complain 1 (complaint fault.reason)
      | .ok (_, node) =>
          if node.isDirectory && !recursive then
            working.complain 1 (complaint FileFault.isADirectory.reason)
          else working.call (Files.removeTree path) fun fault => complaint fault.reason

/-- The place for something that goes to a destination: inside it if that is a directory. -/
def placeIn (files : Files) (source destination : String) : FilePath :=
  if files.isDirectory ⟨destination⟩ then
    (FilePath.mk destination).join ⟨TextUtility.baseName source⟩
  else ⟨destination⟩

def copyNode (files : Files) (node : FileNode) (target : FilePath) : Except FileFault Files :=
  match files.walk true target with
  | .ok (.vacant directory name) => .ok (files.put (directory ++ [name]) node)
  | .ok (.node location (.directory _)) =>
      .ok ((node.entries).foldl
        (fun files entry => files.put (location ++ [entry.1]) entry.2) files)
  | .ok (.node _ _) => .error .notADirectory
  | .error fault => .error fault

def cp (call : UtilityCall) : UtilityResult :=
  let (options, operands) := options "rRapfvd" call
  let recursive := options.contains 'r' || options.contains 'R' || options.contains 'a'
  match operands.getLast?, operands.dropLast with
  | some destination, first :: others =>
      ((first :: others).foldl
        (fun working source =>
          let target := placeIn working.files source destination
          match working.files.node? ⟨source⟩ with
          | .error fault => working.complain 1 s!"cp: cannot stat '{source}': {fault.reason}"
          | .ok (location, node) =>
              if node.isDirectory then
                if !recursive then
                  working.complain 1 s!"cp: -r not specified; omitting directory '{source}'"
                else
                  match copyNode working.files node target with
                  | .ok files => { working with files }
                  | .error _ =>
                      working.complain 1
                        s!"cp: cannot overwrite non-directory '{target.text}' with directory '{source}'"
              else if (working.files.node? target).toOption.map Prod.fst = some location then
                working.complain 1 s!"cp: '{source}' and '{target.text}' are the same file"
              else
                working.call (Files.copyFile ⟨source⟩ target) fun fault =>
                  s!"cp: cannot create regular file '{target.text}': {fault.reason}")
        (Working.start call)).result
  | some only, [] =>
      ((Working.start call).complain 1 s!"cp: missing destination file operand after '{only}'").result
  | none, _ => ((Working.start call).complain 1 "cp: missing file operand").result

def mv (call : UtilityCall) : UtilityResult :=
  let (_, operands) := options "fnv" call
  match operands.getLast?, operands.dropLast with
  | some destination, first :: others =>
      ((first :: others).foldl
        (fun working source =>
          let target := placeIn working.files source destination
          match working.files.ownLocation ⟨source⟩ with
          | .error fault => working.complain 1 s!"mv: cannot stat '{source}': {fault.reason}"
          | .ok _ =>
              working.call (Files.rename ⟨source⟩ target) fun fault =>
                s!"mv: cannot move '{source}' to '{target.text}': {fault.reason}")
        (Working.start call)).result
  | some only, [] =>
      ((Working.start call).complain 1 s!"mv: missing destination file operand after '{only}'").result
  | none, _ => ((Working.start call).complain 1 "mv: missing file operand").result

def touch (call : UtilityCall) : UtilityResult :=
  let (_, operands) := options "acm" call
  forEach call operands fun working operand =>
    if working.files.isPresent ⟨operand⟩ then working
    else
      working.call (Files.writeText ⟨operand⟩ "") fun fault =>
        s!"touch: cannot touch '{operand}': {fault.reason}"

def chmod (call : UtilityCall) : UtilityResult :=
  let working := Working.start call
  match call.arguments with
  | mode :: operands =>
      let executable : Bool :=
        if mode.toList.all Char.isDigit then
          mode.toList.any fun digit => ['1', '3', '5', '7'].contains digit
        else mode.toList.contains '+'
      let isChange := mode.toList.all Char.isDigit || mode.toList.contains 'x'
      (operands.foldl
        (fun working operand =>
          let action : FileCall Unit :=
            if isChange then Files.setExecutable ⟨operand⟩ executable else pure ()
          working.call action fun fault => s!"chmod: cannot access '{operand}': {fault.reason}")
        working).result
  | [] => (working.complain 1 "chmod: missing operand").result

def listing (options : List Char) (node : FileNode) : List String :=
  let names := sortedNames node.names
  if options.contains 'a' then "." :: ".." :: names
  else if options.contains 'A' then names
  else names.filter fun name => !name.startsWith "."

def ls (call : UtilityCall) : UtilityResult :=
  let (options, operands) := options "1aAldR" call
  let operands := if operands.isEmpty then ["."] else sortedNames operands
  let found := operands.map fun operand => (operand, call.files.node? ⟨operand⟩)
  let working := found.foldl
    (fun working entry =>
      match entry.2 with
      | .error fault => working.complain 2 s!"ls: cannot access '{entry.1}': {fault.reason}"
      | .ok _ => working) (Working.start call)
  let isPlain (entry : String × Except FileFault (Location × FileNode)) : Bool :=
    match entry.2 with
    | .ok (_, node) => !node.isDirectory || options.contains 'd'
    | .error _ => false
  let plain := (found.filter isPlain).map Prod.fst
  let working := working.write (TextUtility.joinLines plain)
  let directories := found.filterMap fun entry =>
    match entry.2 with
    | .ok (_, node) =>
        if node.isDirectory && !options.contains 'd' then some (entry.1, listing options node)
        else none
    | .error _ => none
  let blocks :=
    if operands.length = 1 then directories.map fun entry => TextUtility.joinLines entry.2
    else directories.map fun entry => entry.1 ++ ":\n" ++ TextUtility.joinLines entry.2
  let gap := if plain.isEmpty || blocks.isEmpty then "" else "\n"
  (working.write (gap ++ "\n".intercalate blocks)).result

def isNonEmptyFile (files : Files) (operand : String) : Bool :=
  match files.node? ⟨operand⟩ with
  | .ok (_, .file contents _) => contents.size > 0
  | .ok _ => true
  | .error _ => false

def isExecutable (files : Files) (operand : String) : Bool :=
  match files.node? ⟨operand⟩ with
  | .ok (_, .file _ executable) => executable
  | .ok _ => true
  | .error _ => false

def isLink (files : Files) (operand : String) : Bool :=
  match files.ownLocation ⟨operand⟩ with
  | .ok (_, .link _) => true
  | _ => false

inductive TestFault where
  | badNumber (text : String)
  | unexpectedOperator (text : String)
  | argumentExpected (operator : String)
  | bracketExpected
deriving DecidableEq, Repr

def TestFault.text : TestFault → String
  | badNumber text => s!"Illegal number: {text}"
  | unexpectedOperator text => s!"{text}: unexpected operator"
  | argumentExpected operator => s!"{operator}: argument expected"
  | bracketExpected => "closing paren expected"

/-- A decimal number with blanks around it. -/
def numberOf (text : String) : Except TestFault Int :=
  let trimmed := (text.toList.dropWhile Char.isWhitespace).reverse.dropWhile Char.isWhitespace
  let (negative, digits) :=
    match trimmed.reverse with
    | '-' :: rest => (true, rest)
    | '+' :: rest => (false, rest)
    | other => (false, other)
  if digits.isEmpty || !digits.all Char.isDigit then .error (.badNumber text)
  else
    let value : Int := ((String.ofList digits).toNat?.getD 0 : Nat)
    .ok (if negative then -value else value)

def unaryOperators : List String :=
  ["-r", "-w", "-x", "-e", "-f", "-d", "-c", "-b", "-p", "-u", "-g", "-k", "-s", "-t", "-z", "-n",
    "-h", "-O", "-G", "-L", "-S"]

def binaryOperators : List String :=
  ["=", "!=", "<", ">", "-eq", "-ne", "-gt", "-ge", "-lt", "-le", "-nt", "-ot", "-ef"]

def unaryTest (files : Files) (operator operand : String) : Except TestFault Bool :=
  match operator with
  | "-n" => .ok (operand ≠ "")
  | "-z" => .ok (operand = "")
  | "-f" => .ok (files.isFile ⟨operand⟩)
  | "-d" => .ok (files.isDirectory ⟨operand⟩)
  | "-x" => .ok (isExecutable files operand)
  | "-s" => .ok (isNonEmptyFile files operand)
  | "-h" => .ok (isLink files operand)
  | "-L" => .ok (isLink files operand)
  | "-t" => (numberOf operand).map fun _ => false
  | other => .ok (["-e", "-r", "-w", "-O", "-G"].contains other && files.isPresent ⟨operand⟩)

def isSameFile (files : Files) (left right : String) : Bool :=
  match files.node? ⟨left⟩, files.node? ⟨right⟩ with
  | .ok (first, _), .ok (second, _) => first = second
  | _, _ => false

def binaryTest (files : Files) (operator left right : String) : Except TestFault Bool :=
  let numbers (holds : Int → Int → Bool) : Except TestFault Bool := do
    let first ← numberOf left
    let second ← numberOf right
    .ok (holds first second)
  match operator with
  | "=" => .ok (left = right)
  | "!=" => .ok (left ≠ right)
  | "<" => .ok (left < right)
  | ">" => .ok (right < left)
  | "-eq" => numbers fun first second => first = second
  | "-ne" => numbers fun first second => first ≠ second
  | "-lt" => numbers fun first second => first < second
  | "-le" => numbers fun first second => first ≤ second
  | "-gt" => numbers fun first second => second < first
  | "-ge" => numbers fun first second => second ≤ first
  | "-ef" => .ok (isSameFile files left right)
  | _ => .ok false

/-- The value of a test, and its words from the last one on that it took. -/
abbrev Tested : Type := Bool × List String

def isBinaryAt (words : List String) : Bool :=
  (words.head?.map binaryOperators.contains).getD false

/-- Whether the first word works on the second; alone or before an operator it is an operand. -/
def isUnaryAt : List String → Bool
  | operator :: next :: rest =>
      unaryOperators.contains operator && (rest.isEmpty || !binaryOperators.contains next)
  | _ => false

section

-- Tests joined by operators, for what stands between brackets.
variable (joined : List String → Except TestFault Tested) (files : Files)

def oneTest (words : List String) : Except TestFault Tested :=
  match words with
  | [] => .ok (false, [])
  | "(" :: ")" :: rest => .ok (false, ")" :: rest)
  | "(" :: first :: rest => do
      let (value, last) ← joined (first :: rest)
      match last.drop 1 with
      | ")" :: rest => .ok (value, ")" :: rest)
      | _ => .error .bracketExpected
  | left :: rest =>
      if isUnaryAt words then
        (unaryTest files left (rest.headD "")).map fun value => (value, rest)
      else if isBinaryAt rest then
        match rest with
        | operator :: right :: behind =>
            (binaryTest files operator left right).map fun value => (value, right :: behind)
        | other => .error (.argumentExpected (other.headD ""))
      else .ok (left ≠ "", words)

def negatedTest : List String → Except TestFault Tested
  | ["!"] => .ok (true, ["!"])
  | "!" :: rest => (negatedTest rest).map fun tested => (!tested.1, tested.2)
  | words => oneTest joined files words

/-- Tests joined by an operator that binds tightly. -/
def allTests : Nat → List String → Except TestFault Tested
  | 0, words => negatedTest joined files words
  | steps + 1, words => do
      let (value, last) ← negatedTest joined files words
      match last.drop 1 with
      | "-a" :: rest => do
          let (others, last) ← allTests steps rest
          .ok (value && others, last)
      | _ => .ok (value, last)

end

def tests (files : Files) : Nat → List String → Except TestFault Tested
  | 0, words => .ok (false, words)
  | steps + 1, words => do
      let (value, last) ← allTests (tests files steps) files words.length words
      match last.drop 1 with
      | "-o" :: rest => do
          let (others, last) ← tests files steps rest
          .ok (value || others, last)
      | _ => .ok (value, last)

/-- A test that takes all words. -/
def wholeTest (files : Files) (words : List String) : Except TestFault Bool := do
  match ← tests files (words.length + 1) words with
  | (_, last :: _ :: _) => .error (.unexpectedOperator last)
  | (value, _) => .ok value

/-- The value of three words: an operator in the middle comes first. -/
def threeWords (files : Files) (left operator right : String) : Except TestFault Bool :=
  if binaryOperators.contains operator then binaryTest files operator left right
  else if left = "(" && right = ")" then wholeTest files [operator]
  else if left = "!" then (wholeTest files [operator, right]).map not
  else wholeTest files [left, operator, right]

/-- The value of all words; three or four of them are first looked at as a whole. -/
def condition (files : Files) : List String → Except TestFault Bool
  | [] => .ok false
  | [left, operator, right] => threeWords files left operator right
  | [left, first, second, third] =>
      if left = "(" && third = ")" then wholeTest files [first, second]
      else if left = "!" then (threeWords files first second third).map not
      else wholeTest files [left, first, second, third]
  | words => wholeTest files words

/-- The program `test`, also under the name of a bracket that needs its partner. -/
def test (call : UtilityCall) : UtilityResult :=
  let working := Working.start call
  let words :=
    if call.name = "[" then
      if call.arguments.getLast? = some "]" then some call.arguments.dropLast else none
    else some call.arguments
  match words with
  | none => (working.complain 2 "[: missing ]").result
  | some words =>
      match condition call.files words with
      | .ok true => working.result
      | .ok false => (working.ending 1).result
      | .error fault => (working.complain 2 s!"{call.name}: {fault.text}").result

end FileUtility

end PipelineWaves.Sandbox
