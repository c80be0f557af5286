/-!
# Blank characters

The characters that count as blank space in definitions, conditions and path
lists: those with the Unicode property `White_Space`. `trimBlank` removes them
from both ends of a text, and a text is blank when nothing is left.
-/

set_option autoImplicit false

namespace PipelineWaves.Text

/-- Ranges of code points with the property `White_Space`, both ends included. -/
def blankRanges : List (Nat × Nat) :=
  [(0x0009, 0x000D), (0x0020, 0x0020), (0x0085, 0x0085), (0x00A0, 0x00A0),
    (0x1680, 0x1680), (0x2000, 0x200A), (0x2028, 0x2029), (0x202F, 0x202F),
    (0x205F, 0x205F), (0x3000, 0x3000)]

def isBlank (character : Char) : Bool :=
  blankRanges.any fun range =>
    range.1 ≤ character.toNat && character.toNat ≤ range.2

/-- Drops the trailing elements that satisfy a test. -/
def dropTrailing {Item : Type} (test : Item → Bool) (items : List Item) : List Item :=
  (items.reverse.dropWhile test).reverse

def trimBlankChars (characters : List Char) : List Char :=
  dropTrailing isBlank (characters.dropWhile isBlank)

def trimBlank (text : String) : String :=
  String.ofList (trimBlankChars text.toList)

def isBlankText (text : String) : Bool :=
  text.toList.all isBlank

end PipelineWaves.Text
