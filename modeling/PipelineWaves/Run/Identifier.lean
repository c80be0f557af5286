/-!
# Run identifiers

Every run has an identifier of 128 bits. It is written in five groups of
hexadecimal digits and read in that form, without hyphens, in braces or after
`urn:uuid:`.
-/

set_option autoImplicit false

namespace PipelineWaves

structure RunIdentifier where
  digits : List Char
deriving DecidableEq, Repr

namespace RunIdentifier

def zero : RunIdentifier := ⟨List.replicate 32 '0'⟩

def isHexDigit (character : Char) : Bool :=
  character.isDigit || ('a' ≤ character && character ≤ 'f') || ('A' ≤ character && character ≤ 'F')

/-- The first digits, enough to tell runs apart on a screen. -/
def short (identifier : RunIdentifier) : String :=
  String.ofList (identifier.digits.take 8)

def text (identifier : RunIdentifier) : String :=
  let digits := identifier.digits
  let group (start length : Nat) : String := String.ofList ((digits.drop start).take length)
  "-".intercalate [group 0 8, group 8 4, group 12 4, group 16 4, group 20 12]

def ofDigits? (characters : List Char) : Option RunIdentifier :=
  if characters.length = 32 && characters.all isHexDigit then
    some ⟨characters.map Char.toLower⟩
  else none

/-- Hyphens stand after the first, second, third and fourth group only. -/
def ofGroups? (characters : List Char) : Option RunIdentifier :=
  let isHyphen (index : Nat) : Bool := characters[index]? = some '-'
  if characters.length = 36 && isHyphen 8 && isHyphen 13 && isHyphen 18 && isHyphen 23 then
    ofDigits? (characters.take 8 ++ (characters.drop 9).take 4 ++ (characters.drop 14).take 4
      ++ (characters.drop 19).take 4 ++ characters.drop 24)
  else none

def read (source : String) : Option RunIdentifier :=
  let characters := source.toList
  if characters.length = 32 then ofDigits? characters
  else if characters.length = 36 then ofGroups? characters
  else if characters.length = 38 && characters.head? = some '\x7b'
      && characters.getLast? = some '\x7d' then
    ofGroups? ((characters.drop 1).take 36)
  else if characters.length = 45 && characters.take 9 = "urn:uuid:".toList then
    ofGroups? (characters.drop 9)
  else none

end RunIdentifier

end PipelineWaves
