import PipelineWaves.Text.Blank
import PipelineWaves.Text.Bytes

/-!
# Condition tokens

Condition text is read into tokens, each with the byte offset at which it
starts. Words and variable names are as long as possible, and blank characters
only separate. A text that cannot be read is refused at the first character
that starts no token.
-/

set_option autoImplicit false

namespace PipelineWaves

inductive ConditionToken where
  | word (text : String)
  | variable (name : String)
  | literal (text : String)
  | equal
  | different
  | and
  | or
  | not
  | opening
  | closing
deriving DecidableEq, Repr

inductive ConditionFault where
  | unexpectedCharacter (character : Char)
  | unterminatedLiteral
  | missingName (marker : String)
  | unexpectedEnd
  | unexpectedToken (found : ConditionToken)
  | expectedClosing (found : ConditionToken)
  | expectedOutcome (step : String) (found : ConditionToken)
  | expectedOperand (found : ConditionToken)
deriving DecidableEq, Repr

structure ConditionSyntaxError where
  position : Nat
  fault : ConditionFault
deriving DecidableEq, Repr

structure PlacedToken where
  position : Nat
  token : ConditionToken
deriving DecidableEq, Repr

namespace ConditionToken

def describe : ConditionToken → String
  | word text => s!"'{text}'"
  | .variable name => s!"variable '{name}'"
  | literal _ => "string literal"
  | equal => "'=='"
  | different => "'!='"
  | and => "'&&'"
  | or => "'||'"
  | not => "'!'"
  | opening => "'('"
  | closing => "')'"

end ConditionToken

namespace ConditionFault

def message : ConditionFault → String
  | unexpectedCharacter character => s!"unexpected character '{character}'"
  | unterminatedLiteral => "unterminated string literal"
  | missingName marker => s!"expected variable name after '{marker}'"
  | unexpectedEnd => "unexpected end of expression"
  | unexpectedToken found => "unexpected " ++ found.describe
  | expectedClosing found => "expected ')', found " ++ found.describe
  | expectedOutcome step found =>
      s!"expected 'succeeded', 'failed' or 'skipped' after step '{step}', found "
        ++ found.describe
  | expectedOperand found => "expected variable or string, found " ++ found.describe

end ConditionFault

namespace ConditionToken

/-- ASCII letters and digits, underscore, hyphen and full stop. -/
def isWordCharacter (character : Char) : Bool :=
  character.isAlphanum || character = '_' || character = '-' || character = '.'

def escaped : Char → Char
  | 'n' => '\n'
  | 't' => '\t'
  | other => other

/-- The text up to the closing quote and the number of characters read, the quote included. -/
def quotedText (quote : Char) : List Char → Option (List Char × Nat)
  | [] => none
  | [character] => if character = quote then some ([], 1) else none
  | character :: next :: rest =>
      if character = '\\' then
        (quotedText quote rest).map fun found => (escaped next :: found.1, found.2 + 2)
      else if character = quote then some ([], 1)
      else (quotedText quote (next :: rest)).map fun found => (character :: found.1, found.2 + 1)

def ofWord (characters : List Char) : Except ConditionFault ConditionToken :=
  match characters with
  | 'e' :: 'n' :: 'v' :: '.' :: name =>
      if name.isEmpty then .error (.missingName "env.")
      else .ok (.variable (String.ofList name))
  | _ => .ok (.word (String.ofList characters))

/-- The token that starts with `first`, and how many characters of `rest` belong to it. -/
def lexeme (first : Char) (rest : List Char) : Except ConditionFault (ConditionToken × Nat) :=
  if first = '(' then .ok (opening, 0)
  else if first = ')' then .ok (closing, 0)
  else if first = '=' then
    if rest.head? = some '=' then .ok (equal, 1) else .error (.unexpectedCharacter first)
  else if first = '!' then
    if rest.head? = some '=' then .ok (different, 1) else .ok (not, 0)
  else if first = '&' then
    if rest.head? = some '&' then .ok (and, 1) else .error (.unexpectedCharacter first)
  else if first = '|' then
    if rest.head? = some '|' then .ok (or, 1) else .error (.unexpectedCharacter first)
  else if first = '\'' || first = '"' then
    match quotedText first rest with
    | some (text, taken) => .ok (literal (String.ofList text), taken)
    | none => .error .unterminatedLiteral
  else if first = '$' then
    let name := rest.takeWhile isWordCharacter
    if name.isEmpty then .error (.missingName "$")
    else .ok (.variable (String.ofList name), name.length)
  else if isWordCharacter first then
    let more := rest.takeWhile isWordCharacter
    (ofWord (first :: more)).map fun token => (token, more.length)
  else .error (.unexpectedCharacter first)

/-- All tokens of a text whose first character stands at byte `position`. -/
def scanFrom (position : Nat) (characters : List Char) :
    Except ConditionSyntaxError (List PlacedToken) :=
  match characters with
  | [] => .ok []
  | first :: rest =>
      if Text.isBlank first then scanFrom (position + first.utf8Size) rest
      else
        match lexeme first rest with
        | .error fault => .error ⟨position, fault⟩
        | .ok (token, taken) =>
            let after := position + first.utf8Size + Text.byteLength (rest.take taken)
            (scanFrom after (rest.drop taken)).map (⟨position, token⟩ :: ·)
termination_by characters.length
decreasing_by all_goals simp; try omega

def scan (source : String) : Except ConditionSyntaxError (List PlacedToken) :=
  scanFrom 0 source.toList

end ConditionToken

end PipelineWaves
