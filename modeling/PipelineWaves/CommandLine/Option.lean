/-!
# Command line options

How the words of a command line are read as options. An option has a long name
and sometimes a letter; its value stands behind an equals sign, directly behind
the letter, or in the next word. Letters without values may be joined. An option
is checked when its value is complete or the next option starts, so of several
faults the first one is reported; a word that no option takes is a fault before
an unchecked option is looked at.
-/

set_option autoImplicit false

namespace PipelineWaves

/-- Why a command line was not accepted, or what it asked to be shown instead. -/
inductive ArgumentFault where
  | unknownArgument
  | invalidValue
  | valueValidation
  | tooManyValues
  | conflict
  | missingRequired
  | missingCommand
  | unknownCommand
  | help
  | version
  | helpOnMissing
deriving DecidableEq, Repr

inductive OptionUse where
  /-- Takes a value, once or any number of times. -/
  | value (repeatable : Bool)
  | flag
  | help
  | version
deriving DecidableEq, Repr

structure OptionRule where
  long : String
  short : Option Char
  use : OptionUse
  required : Bool
  /-- What is wrong with a value. -/
  fault? : String → Option ArgumentFault

/-- The options given so far, the latest first, and one that waits for its value. -/
structure OptionReading where
  given : List (String × String)
  waiting : Option (OptionRule × Option String)

namespace OptionReading

def start : OptionReading := ⟨[], none⟩

def isGiven (reading : OptionReading) (name : String) : Bool :=
  reading.given.any fun option => option.1 = name

def accept (reading : OptionReading) (rule : OptionRule) (value : String) :
    Except ArgumentFault OptionReading :=
  if rule.use ≠ .value true && reading.isGiven rule.long then .error .conflict
  else
    match rule.fault? value with
    | some fault => .error fault
    | none => .ok { reading with given := (rule.long, value) :: reading.given }

def settle (reading : OptionReading) : Except ArgumentFault OptionReading :=
  match reading.waiting with
  | none => .ok reading
  | some (_, none) => .error .invalidValue
  | some (rule, some value) => { reading with waiting := none }.accept rule value

/-- Whether the next word belongs to the option that waits. -/
def wantsValue (reading : OptionReading) : Bool :=
  match reading.waiting with
  | some (_, none) => true
  | _ => false

def giveValue (reading : OptionReading) (value : String) : OptionReading :=
  { reading with waiting := reading.waiting.map fun waiting => (waiting.1, some value) }

def startOption (reading : OptionReading) (rule : OptionRule) :
    Except ArgumentFault OptionReading := do
  let reading ← reading.settle
  match rule.use with
  | .value _ => .ok { reading with waiting := some (rule, none) }
  | .flag => reading.accept rule ""
  | .help => .error .help
  | .version => .error .version

def attach (reading : OptionReading) (rule : OptionRule) (value : String) :
    Except ArgumentFault OptionReading :=
  match rule.use with
  | .value _ => do (← reading.settle).accept rule value
  | _ => .error .tooManyValues

def takeLong (rules : List OptionRule) (reading : OptionReading) (word : List Char) :
    Except ArgumentFault OptionReading :=
  let name := word.takeWhile fun character => character ≠ '='
  match rules.find? fun rule => rule.long.toList = name with
  | none => .error .unknownArgument
  | some rule =>
      match word.drop name.length with
      | [] => reading.startOption rule
      | _ :: value => reading.attach rule (String.ofList value)

/-- Takes joined letters; what follows a letter with a value is its value. -/
def takeLetters (rules : List OptionRule) (reading : OptionReading) :
    List Char → Except ArgumentFault OptionReading
  | [] => .ok reading
  | letter :: rest =>
      match rules.find? fun rule => rule.short = some letter with
      | none => .error .unknownArgument
      | some rule =>
          match rule.use, rest with
          | .value _, [] => reading.startOption rule
          | .value _, '=' :: value => reading.attach rule (String.ofList value)
          | .value _, value => reading.attach rule (String.ofList value)
          | _, rest =>
              match reading.startOption rule with
              | .ok reading => takeLetters rules reading rest
              | .error fault => .error fault

inductive WordForm where
  | long (word : List Char)
  | letters (letters : List Char)
  | separator
  | bare

def wordForm (word : String) : WordForm :=
  match word.toList with
  | ['-', '-'] => .separator
  | '-' :: '-' :: rest => .long rest
  | '-' :: first :: rest => .letters (first :: rest)
  | _ => .bare

def takeWords (rules : List OptionRule) (reading : OptionReading) :
    List String → Except ArgumentFault OptionReading
  | [] => reading.settle
  | word :: rest =>
      match wordForm word with
      | .long name =>
          match reading.takeLong rules name with
          | .ok reading => takeWords rules reading rest
          | .error fault => .error fault
      | .letters letters =>
          match reading.takeLetters rules letters with
          | .ok reading => takeWords rules reading rest
          | .error fault => .error fault
      | .separator => if rest.isEmpty then reading.settle else .error .unknownArgument
      | .bare =>
          if reading.wantsValue then takeWords rules (reading.giveValue word) rest
          else .error .unknownArgument

end OptionReading

structure OptionValues where
  given : List (String × String)

namespace OptionValues

/-- Reads the words of a command; all required options have to be there. -/
def read (rules : List OptionRule) (words : List String) :
    Except ArgumentFault OptionValues := do
  let reading ← OptionReading.start.takeWords rules words
  if rules.any fun rule => rule.required && !reading.isGiven rule.long then
    .error .missingRequired
  else .ok ⟨reading.given.reverse⟩

def has (values : OptionValues) (name : String) : Bool :=
  (values.given.lookup name).isSome

def value? (values : OptionValues) (name : String) : Option String := values.given.lookup name

def all (values : OptionValues) (name : String) : List String :=
  (values.given.filter fun option => option.1 = name).map Prod.snd

end OptionValues

end PipelineWaves
