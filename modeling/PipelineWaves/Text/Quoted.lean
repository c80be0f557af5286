import PipelineWaves.Text.Blank

/-!
# Quoted texts for messages

How a text stands in a message when its exact characters matter: between double
quotes, with a backslash before quotes and backslashes, and with every character
that does not show written by its code point.
-/

set_option autoImplicit false

namespace PipelineWaves.Text

/-- Ranges of code points that do not show: controls, format characters, separators. -/
def hiddenRanges : List (Nat × Nat) :=
  [(0x0000, 0x001F), (0x007F, 0x00A0), (0x00AD, 0x00AD), (0x0300, 0x036F), (0x0483, 0x0489),
    (0x0600, 0x0605), (0x061C, 0x061C), (0x06DD, 0x06DD), (0x070F, 0x070F), (0x1680, 0x1680),
    (0x180E, 0x180E), (0x1AB0, 0x1AFF), (0x1DC0, 0x1DFF), (0x2000, 0x200F), (0x2028, 0x202F),
    (0x205F, 0x206F), (0x20D0, 0x20F0), (0x3000, 0x3000), (0xD800, 0xF8FF), (0xFE00, 0xFE0F),
    (0xFE20, 0xFE2F), (0xFEFF, 0xFEFF), (0xFFF0, 0xFFFB), (0xFFFE, 0xFFFF), (0xE0000, 0x10FFFF)]

def isHidden (character : Char) : Bool :=
  hiddenRanges.any fun range =>
    range.1 ≤ character.toNat && character.toNat ≤ range.2

def escapedForMessage (character : Char) : List Char :=
  if character = '"' then ['\\', '"']
  else if character = '\\' then ['\\', '\\']
  else if character = '\n' then ['\\', 'n']
  else if character = '\r' then ['\\', 'r']
  else if character = '\t' then ['\\', 't']
  else if character = '\x00' then ['\\', '0']
  else if isHidden character then
    ['\\', 'u', '\x7b'] ++ Nat.toDigits 16 character.toNat ++ ['\x7d']
  else [character]

def quotedForMessage (text : String) : String :=
  "\"" ++ String.ofList (text.toList.flatMap escapedForMessage) ++ "\""

end PipelineWaves.Text
