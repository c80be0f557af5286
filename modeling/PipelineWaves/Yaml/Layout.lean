import PipelineWaves.Yaml.Tag

/-!
# Tokens from the layout of a text

The tokens of a text are found from left to right. Outside of brackets the
column of a token decides which block collections start and end before it. A
token that may turn out to be a key is remembered together with its number; when
a colon follows on the same line, its key mark, and the start of a mapping if
one is due, are put before it afterwards. All these later marks are kept apart
and merged into the tokens at the end.
-/

set_option autoImplicit false

namespace PipelineWaves

/-- A token that is a key if a colon follows. -/
structure PossibleKey where
  number : Nat
  position : YamlPosition
  /-- Whether the text is at fault when no colon follows. -/
  required : Bool
deriving DecidableEq, Repr

structure YamlLayout where
  position : YamlPosition
  /-- The latest token stands first. -/
  tokens : List YamlToken
  /-- Marks to be put before the token of the given number; the latest stand first. -/
  marks : List (Nat × List YamlToken)
  /-- The columns of the open block collections, the innermost first. -/
  indents : List Nat
  /-- One entry for each open bracket and one for the text around them. -/
  keys : List (Option PossibleKey)
  keyAllowed : Bool

namespace YamlLayout

def start : YamlLayout := ⟨.start, [], [], [], [none], true⟩

def inFlow (layout : YamlLayout) : Bool := 1 < layout.keys.length

def number (layout : YamlLayout) : Nat := layout.tokens.length

def indent (layout : YamlLayout) : Option Nat := layout.indents.head?

def emit (token : YamlToken) (layout : YamlLayout) : YamlLayout :=
  { layout with tokens := token :: layout.tokens }

def allowKey (allowed : Bool) (layout : YamlLayout) : YamlLayout :=
  { layout with keyAllowed := allowed }

def keyLimit : Nat := 1024

/-- Drops a possible key that is too far away; one that was required is a fault. -/
def refreshed (position : YamlPosition) :
    Option PossibleKey → Except TextFault (Option PossibleKey)
  | none => .ok none
  | some key =>
      if key.position.line < position.line || key.position.offset + keyLimit < position.offset then
        if key.required then .error .malformed else .ok none
      else .ok (some key)

def refreshEach (position : YamlPosition) :
    List (Option PossibleKey) → Except TextFault (List (Option PossibleKey))
  | [] => .ok []
  | key :: rest => do
      let key ← refreshed position key
      let rest ← refreshEach position rest
      .ok (key :: rest)

def refreshKeys (layout : YamlLayout) : Except TextFault YamlLayout := do
  .ok { layout with keys := ← refreshEach layout.position layout.keys }

def dropKey (layout : YamlLayout) : Except TextFault YamlLayout :=
  match layout.keys with
  | some key :: rest =>
      if key.required then .error .malformed else .ok { layout with keys := none :: rest }
  | _ => .ok layout

def saveKey (layout : YamlLayout) : Except TextFault YamlLayout :=
  if layout.keyAllowed then do
    let required := !layout.inFlow && layout.indent = some layout.position.column
    let layout ← layout.dropKey
    .ok { layout with
      keys := some ⟨layout.number, layout.position, required⟩ :: layout.keys.drop 1 }
  else .ok layout

/-- Whether a collection at this column starts a new block. -/
def opensBlock (column : Nat) (layout : YamlLayout) : Bool :=
  !layout.inFlow &&
    match layout.indent with
    | some indent => indent < column
    | none => true

/-- Starts a block at the current column unless one is open there. -/
def openBlock (token : YamlToken) (layout : YamlLayout) : YamlLayout :=
  if layout.opensBlock layout.position.column then
    { layout with indents := layout.position.column :: layout.indents }.emit token
  else layout

/-- Ends the blocks that lie to the right of a column. -/
def closeBlocks (column : Nat) (layout : YamlLayout) : YamlLayout :=
  if layout.inFlow then layout
  else
    let closed := (layout.indents.takeWhile fun indent => column < indent).length
    { layout with
      indents := layout.indents.drop closed
      tokens := List.replicate closed .blockEnd ++ layout.tokens }

def closeAllBlocks (layout : YamlLayout) : YamlLayout :=
  if layout.inFlow then layout
  else
    { layout with
      indents := []
      tokens := List.replicate layout.indents.length .blockEnd ++ layout.tokens }

/-- A token that stands at the start of a line outside of all blocks. -/
def documentToken (token : YamlToken) (layout : YamlLayout) : Except TextFault YamlLayout := do
  let layout ← layout.closeAllBlocks.dropKey
  .ok ((layout.allowKey false).emit token)

def openBracket (token : YamlToken) (layout : YamlLayout) : Except TextFault YamlLayout := do
  let layout ← layout.saveKey
  .ok ({ layout with keys := none :: layout.keys, keyAllowed := true }.emit token)

def closeBracket (token : YamlToken) (layout : YamlLayout) : Except TextFault YamlLayout := do
  let layout ← layout.dropKey
  let keys := if layout.inFlow then layout.keys.drop 1 else layout.keys
  .ok ({ layout with keys, keyAllowed := false }.emit token)

def comma (layout : YamlLayout) : Except TextFault YamlLayout := do
  let layout ← layout.dropKey
  .ok ((layout.allowKey true).emit .comma)

def dash (layout : YamlLayout) : Except TextFault YamlLayout := do
  if !layout.inFlow && !layout.keyAllowed then .error .malformed
  else
    let layout ← (layout.openBlock .blockSequence).dropKey
    .ok ((layout.allowKey true).emit .dash)

def keyMark (layout : YamlLayout) : Except TextFault YamlLayout := do
  if !layout.inFlow && !layout.keyAllowed then .error .malformed
  else
    let layout ← (layout.openBlock .blockMapping).dropKey
    .ok ((layout.allowKey (!layout.inFlow)).emit .key)

def confirmKey (key : PossibleKey) (layout : YamlLayout) : YamlLayout :=
  let opens := layout.opensBlock key.position.column
  let marks := if opens then [YamlToken.blockMapping, .key] else [.key]
  { layout with
    marks := (key.number, marks) :: layout.marks
    indents := if opens then key.position.column :: layout.indents else layout.indents
    keys := none :: layout.keys.drop 1
    keyAllowed := false }

def valueMark (layout : YamlLayout) : Except TextFault YamlLayout :=
  match layout.keys with
  | some key :: _ => .ok ((layout.confirmKey key).emit .value)
  | _ =>
      if layout.inFlow then .ok ((layout.allowKey false).emit .value)
      else if layout.keyAllowed then
        .ok (((layout.openBlock .blockMapping).allowKey true).emit .value)
      else .error .malformed

def content (token : YamlToken) (taken : Nat) (layout : YamlLayout) :
    Except TextFault (YamlLayout × Nat) := do
  let layout ← layout.saveKey
  .ok ((layout.allowKey false).emit token, taken)

def anchorName? (characters : List Char) : Option String :=
  let name := characters.takeWhile Yaml.isWordCharacter
  let behind := characters.drop name.length
  let ends := Yaml.startsBlank behind
    || behind.head?.any fun next => ['?', ':', ',', ']', '\x7d', '%', '@', '\x60'].contains next
  if !name.isEmpty && ends then some (String.ofList name) else none

def anchor (make : String → YamlToken) (rest : List Char) (layout : YamlLayout) :
    Except TextFault (YamlLayout × Nat) :=
  match anchorName? rest with
  | some name => layout.content (make name) (name.length + 1)
  | none => .error .malformed

def tag (characters : List Char) (layout : YamlLayout) :
    Except TextFault (YamlLayout × Nat) := do
  let (token, taken) ← Yaml.tag characters
  let behind := characters.drop taken
  if (layout.inFlow && behind.head? = some ',') || Yaml.startsBlank behind then
    layout.content token taken
  else .error .malformed

def quotedScalar (quote : Char) (rest : List Char) (layout : YamlLayout) :
    Except TextFault (YamlLayout × Nat) := do
  let scalar ← Yaml.quoted quote (layout.position.column + 1) rest
  layout.content (.scalar false scalar.text) (scalar.taken + 1)

def blockScalar (folded : Bool) (rest : List Char) (layout : YamlLayout) :
    Except TextFault (YamlLayout × Nat) := do
  let layout ← layout.dropKey
  let scalar ← Yaml.block folded layout.indent rest
  .ok ((layout.allowKey true).emit (.scalar false scalar.text), scalar.taken + 1)

def plainScalar (characters : List Char) (layout : YamlLayout) :
    Except TextFault (YamlLayout × Nat) := do
  let margin :=
    match layout.indent with
    | some column => column + 1
    | none => 0
  let scalar ← Yaml.plain layout.inFlow margin layout.position.column characters
  let (layout, taken) ← layout.content (.scalar true scalar.text) scalar.taken
  .ok (if scalar.endsLine then layout.allowKey true else layout, taken)

/-- Characters that start other tokens than plain scalars, or none at all. -/
def isIndicator (character : Char) : Bool :=
  ['-', '?', ':', ',', '[', ']', '\x7b', '\x7d', '#', '&', '*', '!', '|', '>', '\'', '"', '%', '@',
    '\x60'].contains character

def startsPlain (layout : YamlLayout) (first : Char) (rest : List Char) : Bool :=
  (!Yaml.isSpaceOrBreak first && !isIndicator first)
    || (first = '-' && !(rest.head?.any Yaml.isSpace))
    || (!layout.inFlow && (first = '?' || first = ':') && !Yaml.startsBlank rest)

def single (result : Except TextFault YamlLayout) : Except TextFault (YamlLayout × Nat) :=
  result.map fun layout => (layout, 1)

/-- The token that starts here, with the number of its characters. -/
def token (first : Char) (rest : List Char) (layout : YamlLayout) :
    Except TextFault (YamlLayout × Nat) :=
  let characters := first :: rest
  let atStart := layout.position.column = 0
  let stands := layout.inFlow || Yaml.startsBlank rest
  if atStart && first = '%' then
    match Yaml.directive? rest with
    | some (token, taken) => (layout.documentToken token).map fun layout => (layout, taken + 1)
    | none => .error .malformed
  else if atStart && Yaml.startsMarker '-' characters then
    (layout.documentToken .documentStart).map fun layout => (layout, 3)
  else if atStart && Yaml.startsMarker '.' characters then
    (layout.documentToken .documentEnd).map fun layout => (layout, 3)
  else if first = '[' then single (layout.openBracket .openSequence)
  else if first = '\x7b' then single (layout.openBracket .openMapping)
  else if first = ']' then single (layout.closeBracket .closeSequence)
  else if first = '\x7d' then single (layout.closeBracket .closeMapping)
  else if first = ',' then single layout.comma
  else if first = '-' && Yaml.startsBlank rest then single layout.dash
  else if first = '?' && stands then single layout.keyMark
  else if first = ':' && stands then single layout.valueMark
  else if first = '*' then layout.anchor .reference rest
  else if first = '&' then layout.anchor .anchor rest
  else if first = '!' then layout.tag characters
  else if first = '|' && !layout.inFlow then layout.blockScalar false rest
  else if first = '>' && !layout.inFlow then layout.blockScalar true rest
  else if first = '\'' || first = '"' then layout.quotedScalar first rest
  else if layout.startsPlain first rest then layout.plainScalar characters
  else .error .malformed

/-- Blanks, comments and line breaks between tokens, with their number of characters. -/
def gap? (first : Char) (rest : List Char) (layout : YamlLayout) : Option (YamlLayout × Nat) :=
  if first = ' ' || (first = '\t' && (layout.inFlow || !layout.keyAllowed)) then some (layout, 1)
  else if first = Yaml.byteOrderMark && layout.position.column = 0 then some (layout, 1)
  else if first = '#' then some (layout, (Yaml.restOfLine (first :: rest)).length)
  else if Yaml.isBreak first then
    some (if layout.inFlow then layout else layout.allowKey true,
      Yaml.breakLength (first :: rest))
  else none

def step (first : Char) (rest : List Char) (layout : YamlLayout) :
    Except TextFault (YamlLayout × Nat) :=
  match layout.gap? first rest with
  | some found => .ok found
  | none => do
      let layout ← layout.refreshKeys
      (layout.closeBlocks layout.position.column).token first rest

def finish (layout : YamlLayout) : Except TextFault YamlLayout := do
  let layout ← layout.refreshKeys
  let layout ← layout.closeAllBlocks.dropKey
  .ok (layout.emit .streamEnd)

/-- Lays out the rest of a text. -/
def scan (layout : YamlLayout) : List Char → Except TextFault YamlLayout
  | [] => layout.finish
  | first :: rest =>
      match layout.step first rest with
      | .error fault => .error fault
      | .ok (layout, taken) =>
          let position := layout.position.after (first :: rest.take (taken - 1))
          scan { layout with position } (rest.drop (taken - 1))
termination_by characters => characters.length
decreasing_by simp only [List.length_drop, List.length_cons]; omega

/-- Puts the marks before their tokens; both lists start with the latest. -/
def merge (marks : List (Nat × List YamlToken)) (count : Nat) (merged : List YamlToken) :
    List YamlToken → List YamlToken
  | [] => merged
  | token :: rest =>
      let here := (marks.filter fun mark => mark.1 = count - 1).flatMap Prod.snd
      merge (marks.filter fun mark => mark.1 ≠ count - 1) (count - 1) (here ++ token :: merged)
        rest

def merged (layout : YamlLayout) : List YamlToken :=
  merge layout.marks layout.number [] layout.tokens

end YamlLayout

namespace YamlToken

/-- The tokens of a text; a character that no text may hold is a fault. -/
def ofText (source : String) : Except TextFault (List YamlToken) :=
  let characters := source.toList
  if characters.all Yaml.isAllowed then
    (YamlLayout.start.scan characters).map YamlLayout.merged
  else .error .malformed

end YamlToken

end PipelineWaves
