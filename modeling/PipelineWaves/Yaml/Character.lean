/-!
# Characters of YAML texts

Which characters a YAML text may hold and which of them separate lines and words.
-/

set_option autoImplicit false

namespace PipelineWaves.Yaml

def lineSeparator : Char := '\u2028'

def paragraphSeparator : Char := '\u2029'

/-- Characters that a text may hold: control characters other than blanks are left out. -/
def isAllowed (character : Char) : Bool :=
  let code := character.toNat
  character = '\t' || character = '\n' || character = '\r'
    || (0x20 ≤ code && code ≤ 0x7E) || code = 0x85 || (0xA0 ≤ code && code ≤ 0xFFFD)
    || 0x10000 ≤ code

def isBreak (character : Char) : Bool :=
  character = '\n' || character = '\r' || character = '\u0085' || character = lineSeparator
    || character = paragraphSeparator

def isSpace (character : Char) : Bool := character = ' ' || character = '\t'

def isSpaceOrBreak (character : Char) : Bool := isSpace character || isBreak character

/-- Whether a word ends before these characters. -/
def startsBlank : List Char → Bool
  | [] => true
  | first :: _ => isSpaceOrBreak first

/-- What a line break contributes to a text. -/
def breakText (character : Char) : Char :=
  if character = lineSeparator || character = paragraphSeparator then character else '\n'

def isWordCharacter (character : Char) : Bool :=
  character.isAlphanum || character = '_' || character = '-'

def isHexDigit (character : Char) : Bool :=
  character.isDigit || ('a' ≤ character && character ≤ 'f') || ('A' ≤ character && character ≤ 'F')

def hexValue (digit : Char) : Nat :=
  if digit.isDigit then digit.toNat - '0'.toNat
  else if 'a' ≤ digit then digit.toNat - 'a'.toNat + 10
  else digit.toNat - 'A'.toNat + 10

def byteOrderMark : Char := '\ufeff'

/-- Three hyphens or three dots that stand alone. -/
def startsMarker (mark : Char) (characters : List Char) : Bool :=
  characters.take 3 = [mark, mark, mark] && startsBlank (characters.drop 3)

def startsDocumentMarker (characters : List Char) : Bool :=
  startsMarker '-' characters || startsMarker '.' characters

end PipelineWaves.Yaml
