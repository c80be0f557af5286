import PipelineWaves.Program.Error

/-!
# Quoted texts in programs

Every text of a pipeline enters a program as a string literal or inside a line
comment. A literal names quotes, backslashes and line ends by escapes, and all
other control characters and the characters that change text direction by their
code points, so that a literal ends exactly at its closing quote. A text with a
NUL character has no literal. In comments the same characters become blanks.
-/

set_option autoImplicit false

namespace PipelineWaves.ProgramText

def isControl (character : Char) : Bool :=
  character.toNat < 0x20 || (0x7F ≤ character.toNat && character.toNat < 0xA0)

/-- The embedding, override and isolate characters of bidirectional text, which may not stand in
literals and comments as they are. This is less than the property `Bidi_Control` of Unicode, which
also holds of the marks U+061C, U+200E and U+200F. -/
def changesDirection (character : Char) : Bool :=
  (0x202A ≤ character.toNat && character.toNat ≤ 0x202E)
    || (0x2066 ≤ character.toNat && character.toNat ≤ 0x2069)

def escape (character : Char) : List Char :=
  if character = '"' then ['\\', '"']
  else if character = '\\' then ['\\', '\\']
  else if character = '\n' then ['\\', 'n']
  else if character = '\r' then ['\\', 'r']
  else if character = '\t' then ['\\', 't']
  else if isControl character || changesDirection character then
    ['\\', 'u', '\x7b'] ++ Nat.toDigits 16 character.toNat ++ ['\x7d']
  else [character]

def literalChars (characters : List Char) : List Char :=
  '"' :: characters.flatMap escape ++ ['"']

/-- The literal of a text; `context` names the field it comes from. -/
def quote (context text : String) : Except GenerationError String :=
  if text.toList.contains '\x00' then .error (.notQuotable context)
  else .ok (String.ofList (literalChars text.toList))

def quoteOption (context : String) (text : Option String) : Except GenerationError String :=
  match text with
  | none => .ok "None"
  | some text => (quote context text).map fun literal => "Some(" ++ literal ++ ")"

def commentChar (character : Char) : Char :=
  if isControl character || changesDirection character then ' ' else character

def comment (text : String) : String :=
  String.ofList (text.toList.map commentChar)

end PipelineWaves.ProgramText
