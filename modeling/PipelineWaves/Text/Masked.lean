/-!
# Masks

Two runs of one pipeline differ in identifiers, times and durations only. A mask
puts fixed texts in their places, so that what a run writes can be compared. A
rule looks at what stands ahead and says how many characters it replaces by what.
-/

set_option autoImplicit false

namespace PipelineWaves.Text

/-- What to write for how many characters at the front, if the rule applies there. -/
abbrev MaskRule : Type := List Char → Option (String × Nat)

/-- Applies a rule from left to right; the first `skip` characters are replaced already. -/
def maskFrom (rule : MaskRule) (skip : Nat) : List Char → List Char
  | [] => []
  | character :: rest =>
      match skip with
      | skip + 1 => maskFrom rule skip rest
      | 0 =>
          match rule (character :: rest) with
          | some (text, taken) => text.toList ++ maskFrom rule (taken - 1) rest
          | none => character :: maskFrom rule 0 rest

def masked (rules : List MaskRule) (text : String) : String :=
  rules.foldl (fun text rule => String.ofList (maskFrom rule 0 text.toList)) text

namespace MaskRule

def behind? (start : String) (characters : List Char) : Option (List Char) :=
  if start.toList.isPrefixOf characters then some (characters.drop start.length) else none

def behindDigits? (characters : List Char) : Option (List Char) :=
  match characters.takeWhile Char.isDigit with
  | [] => none
  | digits => some (characters.drop digits.length)

/-- Replaces everything before `rest` by a text. -/
def upTo (characters : List Char) (text : String) (rest : List Char) : String × Nat :=
  (text, characters.length - rest.length)

def place : MaskRule := fun characters => do
  let rest ← (behind? " at line " characters).bind behindDigits?
  let rest ← (behind? " column " rest).bind behindDigits?
  return upTo characters "" rest

def textField (name shown : String) : MaskRule := fun characters => do
  let start := "\"" ++ name ++ "\": \""
  let rest ← behind? start characters
  let rest ← behind? "\"" (rest.dropWhile fun character => character ≠ '"')
  return upTo characters (start ++ shown ++ "\"") rest

def numberField (name shown : String) : MaskRule := fun characters => do
  let start := "\"" ++ name ++ "\": "
  let rest ← (behind? start characters).bind behindDigits?
  return upTo characters (start ++ shown) rest

def isWordCharacter (character : Char) : Bool := character.isAlphanum || character = '_'

def endsWord (characters : List Char) : Bool :=
  !((characters.head?.map isWordCharacter).getD false)

def span (shown : String) : MaskRule := fun characters => do
  let rest ← behindDigits? characters
  let milliseconds := (behind? "ms" rest).filter endsWord
  let seconds := (((behind? "." rest).bind behindDigits?).bind (behind? "s")).filter endsWord
  return upTo characters shown (← milliseconds.or seconds)

end MaskRule

end PipelineWaves.Text
