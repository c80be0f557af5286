import PipelineWaves.Json.Token
import PipelineWaves.Yaml.Text
import PipelineWaves.Yaml.Token

/-!
# Tags and directives

A tag names the kind of a node by a handle and a suffix, or by a whole URI in
angle brackets. Directives at the start of a document give its version and the
URIs that handles stand for.

Every function tells how many characters it takes.
-/

set_option autoImplicit false

namespace PipelineWaves.Yaml

def wordLength (characters : List Char) : Nat :=
  (characters.takeWhile isWordCharacter).length

/-- Characters of URIs; in angle brackets three more are allowed. -/
def isUriCharacter (whole : Bool) (character : Char) : Bool :=
  isWordCharacter character
    || [';', '/', '?', ':', '@', '&', '=', '+', '$', '.', '!', '~', '*', '\'', '(', ')'].contains
      character
    || (whole && (character = ',' || character = '[' || character = ']'))

def sequenceLength (first : Nat) : Option Nat :=
  if first < 0x80 then some 1
  else if 0xC0 ≤ first && first < 0xE0 then some 2
  else if 0xE0 ≤ first && first < 0xF0 then some 3
  else if 0xF0 ≤ first && first < 0xF8 then some 4
  else none

def escapedByte? : List Char → Option Nat
  | '%' :: high :: low :: _ =>
      if isHexDigit high && isHexDigit low then some (hexValue high * 16 + hexValue low) else none
  | _ => none

def continuation? (value : Nat) : Nat → List Char → Option Nat
  | 0, _ => some value
  | count + 1, characters =>
      match escapedByte? characters with
      | some byte =>
          if 0x80 ≤ byte && byte < 0xC0 then
            continuation? (value * 64 + byte % 64) count (characters.drop 3)
          else none
      | none => none

/-- A character given by the escapes of its bytes, and the characters they take. -/
def escapedCharacter? (characters : List Char) : Option (Char × Nat) := do
  let first ← escapedByte? characters
  let length ← sequenceLength first
  let lead := if length = 1 then first else first % Nat.pow 2 (7 - length)
  let value ← continuation? lead (length - 1) (characters.drop 3)
  if isScalarValue value then some (Char.ofNat value, length * 3) else none

/-- The characters of a URI; `skip` counts those already taken by an escape. -/
def uriFrom (whole : Bool) (skip : Nat) : List Char → Except TextFault (List Char × Nat)
  | [] => .ok ([], 0)
  | first :: rest =>
      match skip with
      | skip + 1 => do
          let (characters, taken) ← uriFrom whole skip rest
          .ok (characters, taken + 1)
      | 0 =>
          if first = '%' then
            match escapedCharacter? (first :: rest) with
            | none => .error .malformed
            | some (character, length) => do
                let (characters, taken) ← uriFrom whole (length - 1) rest
                .ok (character :: characters, taken + 1)
          else if isUriCharacter whole first then do
            let (characters, taken) ← uriFrom whole 0 rest
            .ok (first :: characters, taken + 1)
          else .ok ([], 0)

/-- An exclamation mark and a word, with a second mark if there is one. -/
def tagHandle (characters : List Char) : List Char :=
  let length := wordLength (characters.drop 1) + 1
  if (characters.drop length).head? = some '!' then characters.take (length + 1)
  else characters.take length

def isWholeHandle (handle : List Char) : Bool :=
  2 ≤ handle.length && handle.getLast? = some '!'

def tag (characters : List Char) : Except TextFault (YamlToken × Nat) := do
  if (characters.drop 1).head? = some '<' then
    let behind := characters.drop 2
    let (uri, taken) ← uriFrom true 0 behind
    if uri.isEmpty || (behind.drop taken).head? ≠ some '>' then .error .malformed
    else .ok (.tag "" (String.ofList uri), taken + 3)
  else
    let handle := tagHandle characters
    let (suffix, taken) ← uriFrom false 0 (characters.drop handle.length)
    let length := handle.length + taken
    if isWholeHandle handle then
      if suffix.isEmpty then .error .malformed
      else .ok (.tag (String.ofList handle) (String.ofList suffix), length)
    else
      let suffix := handle.drop 1 ++ suffix
      if suffix.isEmpty then .ok (.tag "" "!", length)
      else .ok (.tag "!" (String.ofList suffix), length)

def versionNumber? (characters : List Char) : Option (Nat × Nat) :=
  let digits := characters.takeWhile Char.isDigit
  if digits.isEmpty || 9 < digits.length then none
  else some (digits.foldl (fun value digit => value * 10 + hexValue digit) 0, digits.length)

def blankLength (characters : List Char) : Nat := (characters.takeWhile isSpace).length

def versionDirective? (characters : List Char) : Option (YamlToken × Nat) := do
  let blanks := blankLength characters
  let (major, majorLength) ← versionNumber? (characters.drop blanks)
  let behind := characters.drop (blanks + majorLength)
  if behind.head? = some '.' then
    let (minor, minorLength) ← versionNumber? (behind.drop 1)
    some (.version major minor, blanks + majorLength + 1 + minorLength)
  else none

def tagDirective? (characters : List Char) : Option (YamlToken × Nat) := do
  let blanks := blankLength characters
  let behind := characters.drop blanks
  let handle := tagHandle behind
  if handle.head? = some '!' && (handle.length = 1 || isWholeHandle handle) then
    let afterHandle := behind.drop handle.length
    let gap := blankLength afterHandle
    match gap, uriFrom true 0 (afterHandle.drop gap) with
    | gap + 1, .ok (uri, taken) =>
        if uri.isEmpty || !startsBlank (afterHandle.drop (gap + 1 + taken)) then none
        else
          some (.tagDirective (String.ofList handle) (String.ofList uri),
            blanks + handle.length + gap + 1 + taken)
    | _, _ => none
  else none

def directive? (characters : List Char) : Option (YamlToken × Nat) := do
  let length := wordLength characters
  let name := String.ofList (characters.take length)
  let behind := characters.drop length
  if startsBlank behind then
    let (token, taken) ←
      match name with
      | "YAML" => versionDirective? behind
      | "TAG" => tagDirective? behind
      | _ => none
    let ending ← lineEnd? (behind.drop taken)
    some (token, length + taken + ending)
  else none

end PipelineWaves.Yaml
