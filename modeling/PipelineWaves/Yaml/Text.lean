import PipelineWaves.Json.Token
import PipelineWaves.Yaml.Character

/-!
# Scalar texts

The text of scalars as they are written: plain, between quotes, or as a block of
lines. Inside a plain or quoted scalar blanks around a line break go away and a
single break becomes a space. A block keeps its lines or folds them, and its
header says how the breaks at its end are kept.

Every function tells how many characters it takes.
-/

set_option autoImplicit false

namespace PipelineWaves.Yaml

/-- What stands between two words: blanks on one line, or line breaks. -/
inductive Gap where
  | none
  | blanks (reversed : List Char)
  /-- The first break, unless it was escaped, and the others, the latest first. -/
  | lines (first : Option Char) (reversed : List Char)

namespace Gap

def text : Gap → List Char
  | none => []
  | blanks reversed => reversed.reverse
  | lines (some '\n') [] => [' ']
  | lines (some '\n') reversed => reversed.reverse
  | lines (some first) reversed => first :: reversed.reverse
  | lines .none reversed => reversed.reverse

def isLines : Gap → Bool
  | lines _ _ => true
  | _ => false

/-- Blanks after a line break do not count. -/
def addBlank (character : Char) : Gap → Gap
  | none => blanks [character]
  | blanks reversed => blanks (character :: reversed)
  | lines first reversed => lines first reversed

def addBreak (character : Char) : Gap → Gap
  | lines first reversed => lines first (breakText character :: reversed)
  | _ => lines (some (breakText character)) []

end Gap

/-- A scalar that has been read: its text, the characters taken, and whether a break ends them. -/
structure ScalarText where
  text : String
  taken : Nat
  endsLine : Bool

/-- A scalar in the course of reading; the latest character of the text stands first. -/
structure ScalarProgress where
  reversed : List Char
  gap : Gap
  column : Nat
  taken : Nat

namespace ScalarProgress

def finish (progress : ScalarProgress) : ScalarText :=
  ⟨String.ofList progress.reversed.reverse, progress.taken, progress.gap.isLines⟩

def add (progress : ScalarProgress) (characters : List Char) (taken : Nat) : ScalarProgress :=
  { reversed := characters.reverse ++ progress.gap.text.reverse ++ progress.reversed
    gap := .none
    column := progress.column + taken
    taken := progress.taken + taken }

def addBlank (progress : ScalarProgress) (character : Char) : ScalarProgress :=
  { progress with
    gap := progress.gap.addBlank character
    column := progress.column + 1
    taken := progress.taken + 1 }

def addBreak (progress : ScalarProgress) (character : Char) (taken : Nat) : ScalarProgress :=
  { progress with
    gap := progress.gap.addBreak character
    column := 0
    taken := progress.taken + taken }

end ScalarProgress

def isFlowIndicator (character : Char) : Bool :=
  character = ',' || character = '[' || character = ']' || character = '\x7b'
    || character = '\x7d'

def endsPlain (inFlow : Bool) : List Char → Bool
  | [] => true
  | first :: rest =>
      (first = ':' && startsBlank rest) || (inFlow && isFlowIndicator first)

def isMisplacedColon (inFlow : Bool) : List Char → Bool
  | ':' :: next :: _ => inFlow && (isFlowIndicator next || next = '?')
  | _ => false

/-- Whether a line that starts here, behind a gap, no longer belongs to the scalar. -/
def leavesPlain (inFlow : Bool) (margin : Nat) (progress : ScalarProgress)
    (characters : List Char) : Bool :=
  (!inFlow && progress.column < margin) || characters.head? = some '#'
    || (progress.column = 0 && startsDocumentMarker characters)

def isTabInMargin (margin : Nat) (progress : ScalarProgress) (character : Char) : Bool :=
  progress.gap.isLines && progress.column < margin && character = '\t'

def isInGap : Gap → Bool
  | .none => false
  | _ => true

/-- Reads a plain scalar; its further lines are indented to `margin` at least. -/
def plainFrom (inFlow : Bool) (margin : Nat) (progress : ScalarProgress) :
    List Char → Except TextFault ScalarText
  | [] => .ok progress.finish
  | '\r' :: '\n' :: rest => plainFrom inFlow margin (progress.addBreak '\n' 2) rest
  | first :: rest =>
      if isBreak first then plainFrom inFlow margin (progress.addBreak first 1) rest
      else if isSpace first then
        if isTabInMargin margin progress first then .error .malformed
        else plainFrom inFlow margin (progress.addBlank first) rest
      else if isInGap progress.gap && leavesPlain inFlow margin progress (first :: rest) then
        .ok progress.finish
      else if isMisplacedColon inFlow (first :: rest) then .error .malformed
      else if endsPlain inFlow (first :: rest) then .ok progress.finish
      else plainFrom inFlow margin (progress.add [first] 1) rest

def plain (inFlow : Bool) (margin column : Nat) (characters : List Char) :
    Except TextFault ScalarText :=
  plainFrom inFlow margin ⟨[], .none, column, 0⟩ characters

def singleQuotedFrom (progress : ScalarProgress) : List Char → Except TextFault ScalarText
  | [] => .error .malformed
  | '\r' :: '\n' :: rest => singleQuotedFrom (progress.addBreak '\n' 2) rest
  | '\'' :: '\'' :: rest => singleQuotedFrom (progress.add ['\''] 2) rest
  | first :: rest =>
      if isBreak first then singleQuotedFrom (progress.addBreak first 1) rest
      else if isSpace first then singleQuotedFrom (progress.addBlank first) rest
      else if progress.column = 0 && startsDocumentMarker (first :: rest) then .error .malformed
      else if first = '\'' then .ok (progress.add [] 1).finish
      else singleQuotedFrom (progress.add [first] 1) rest

def namedEscapes : List (Char × Char) :=
  [('0', '\x00'), ('a', '\x07'), ('b', '\x08'), ('t', '\t'), ('\t', '\t'), ('n', '\n'),
    ('v', '\x0b'), ('f', '\x0c'), ('r', '\r'), ('e', '\x1b'), (' ', ' '), ('"', '"'),
    ('/', '/'), ('\\', '\\'), ('N', '\u0085'), ('_', '\u00a0'), ('L', lineSeparator),
    ('P', paragraphSeparator)]

def escapeLength (letter : Char) : Option Nat :=
  if letter = 'x' then some 2
  else if letter = 'u' then some 4
  else if letter = 'U' then some 8
  else none

def isScalarValue (code : Nat) : Bool := code < 0xD800 || (0xDFFF < code && code ≤ 0x10FFFF)

/-- The character of an escape and the characters behind the backslash that make it up. -/
def escape? (letter : Char) (rest : List Char) : Option (Char × Nat) :=
  match namedEscapes.lookup letter with
  | some character => some (character, 1)
  | none =>
      match escapeLength letter with
      | none => none
      | some length =>
          let digits := rest.take length
          let code := digits.foldl (fun value digit => value * 16 + hexValue digit) 0
          if digits.length = length && digits.all isHexDigit && isScalarValue code then
            some (Char.ofNat code, length + 1)
          else none

/-- Reads up to the closing quote; `skip` counts characters already taken by an escape. -/
def doubleQuotedFrom (progress : ScalarProgress) (skip : Nat) :
    List Char → Except TextFault ScalarText
  | [] => .error .malformed
  | first :: rest =>
      match skip with
      | skip + 1 => doubleQuotedFrom progress skip rest
      | 0 =>
          if isBreak first then
            if first = '\r' && rest.head? = some '\n' then
              doubleQuotedFrom (progress.addBreak '\n' 2) 1 rest
            else doubleQuotedFrom (progress.addBreak first 1) 0 rest
          else if isSpace first then doubleQuotedFrom (progress.addBlank first) 0 rest
          else if progress.column = 0 && startsDocumentMarker (first :: rest) then
            .error .malformed
          else if first = '"' then .ok (progress.add [] 1).finish
          else if first = '\\' then
            match rest with
            | [] => .error .malformed
            | letter :: behind =>
                if isBreak letter then
                  let taken := if letter = '\r' && behind.head? = some '\n' then 2 else 1
                  let kept := progress.add [] (taken + 1)
                  doubleQuotedFrom { kept with gap := .lines none [], column := 0 } taken rest
                else
                  match escape? letter behind with
                  | some (character, taken) =>
                      doubleQuotedFrom (progress.add [character] (taken + 1)) taken rest
                  | none => .error .malformed
          else doubleQuotedFrom (progress.add [first] 1) 0 rest

def quoted (quote : Char) (column : Nat) (characters : List Char) :
    Except TextFault ScalarText :=
  let start : ScalarProgress := ⟨[], .none, column, 0⟩
  if quote = '"' then doubleQuotedFrom start 0 characters else singleQuotedFrom start characters

inductive Chomping where
  | strip
  | clip
  | keep
deriving DecidableEq

structure BlockHeader where
  chomping : Chomping
  increment : Option Nat
  taken : Nat

def chomping? (character : Char) : Option Chomping :=
  if character = '+' then some .keep else if character = '-' then some .strip else none

/-- Reads the two indicators of a header in either order. -/
def blockIndicators : List Char → Except TextFault BlockHeader
  | [] => .ok ⟨.clip, none, 0⟩
  | first :: rest =>
      let increment (digit : Char) (chomping : Chomping) (taken : Nat) :
          Except TextFault BlockHeader :=
        if digit = '0' then .error .malformed
        else .ok ⟨chomping, some (digit.toNat - '0'.toNat), taken⟩
      match chomping? first with
      | some chomping =>
          match rest.head? with
          | some digit =>
              if digit.isDigit then increment digit chomping 2 else .ok ⟨chomping, none, 1⟩
          | none => .ok ⟨chomping, none, 1⟩
      | none =>
          if first.isDigit then
            match rest.head?.bind chomping? with
            | some chomping => increment first chomping 2
            | none => increment first .clip 1
          else .ok ⟨.clip, none, 0⟩

def restOfLine (characters : List Char) : List Char :=
  characters.takeWhile fun character => !isBreak character

def breakLength : List Char → Nat
  | '\r' :: '\n' :: _ => 2
  | first :: _ => if isBreak first then 1 else 0
  | [] => 0

/-- The blanks and the comment that end a line, if nothing else does. -/
def lineEnd? (characters : List Char) : Option Nat :=
  let blanks := characters.takeWhile isSpace
  let behind := characters.drop blanks.length
  match behind with
  | [] => some blanks.length
  | first :: _ =>
      if first = '#' then some (blanks.length + (restOfLine behind).length)
      else if isBreak first then some blanks.length
      else none

structure BlockProgress where
  reversed : List Char
  /-- The break that ended the last line. -/
  leading : Option Char
  /-- Breaks of empty lines since then, the latest first. -/
  trailing : List Char
  /-- Whether the last line started with a blank. -/
  indented : Bool
  /-- The indentation of the block once it is known. -/
  margin : Option Nat
  widest : Nat
  column : Nat
  taken : Nat
  inLine : Bool

namespace BlockProgress

def step (progress : BlockProgress) : BlockProgress :=
  { progress with column := progress.column + 1, taken := progress.taken + 1 }

def isInMargin (progress : BlockProgress) : Bool :=
  match progress.margin with
  | none => true
  | some margin => progress.column < margin

/-- The margin, now that the first line of text has been reached. -/
def settled (least : Nat) (progress : BlockProgress) : BlockProgress :=
  { progress with
    margin := some (progress.margin.getD (max (max progress.widest progress.column) least)) }

def join (folded : Bool) (startsBlank : Bool) (progress : BlockProgress) : List Char :=
  if folded && progress.leading = some '\n' && !progress.indented && !startsBlank then
    if progress.trailing.isEmpty then [' '] else progress.trailing
  else progress.trailing ++ progress.leading.toList

def startLine (folded : Bool) (first : Char) (progress : BlockProgress) : BlockProgress :=
  let joined := progress.join folded (isSpace first)
  { progress.step with
    reversed := first :: joined ++ progress.reversed
    leading := none
    trailing := []
    indented := isSpace first
    inLine := true }

def addBreak (character : Char) (taken : Nat) (progress : BlockProgress) : BlockProgress :=
  let ended :=
    if progress.inLine then { progress with leading := some (breakText character) }
    else
      { progress with
        trailing := breakText character :: progress.trailing
        widest := max progress.widest progress.column }
  { ended with column := 0, taken := progress.taken + taken, inLine := false }

def finish (chomping : Chomping) (progress : BlockProgress) : ScalarText :=
  let ending :=
    match chomping with
    | .strip => []
    | .clip => progress.leading.toList
    | .keep => progress.trailing ++ progress.leading.toList
  ⟨String.ofList (ending ++ progress.reversed).reverse, progress.taken, true⟩

end BlockProgress

/-- Reads the lines of a block, whose margin is `least` columns wide at least. -/
def blockFrom (folded : Bool) (chomping : Chomping) (least : Nat) (progress : BlockProgress) :
    List Char → Except TextFault ScalarText
  | [] => .ok (progress.finish chomping)
  | '\r' :: '\n' :: rest => blockFrom folded chomping least (progress.addBreak '\n' 2) rest
  | first :: rest =>
      if isBreak first then blockFrom folded chomping least (progress.addBreak first 1) rest
      else if progress.inLine then
        blockFrom folded chomping least
          { progress.step with reversed := first :: progress.reversed } rest
      else if progress.isInMargin && first = ' ' then
        blockFrom folded chomping least progress.step rest
      else if progress.isInMargin && first = '\t' then .error .malformed
      else
        let settled := progress.settled least
        if settled.margin = some settled.column then
          blockFrom folded chomping least (settled.startLine folded first) rest
        else .ok (settled.finish chomping)

/-- Reads a block behind its indicator; `indent` is the indentation around it. -/
def block (folded : Bool) (indent : Option Nat) (characters : List Char) :
    Except TextFault ScalarText := do
  let header ← blockIndicators characters
  let behind := characters.drop header.taken
  match lineEnd? behind with
  | none => .error .malformed
  | some length =>
      let lines := behind.drop length
      let headerLength := header.taken + length + breakLength lines
      let base := indent.getD 0
      let least := match indent with
        | some column => column + 1
        | none => 1
      let start : BlockProgress :=
        { reversed := []
          leading := none
          trailing := []
          indented := false
          margin := header.increment.map (base + ·)
          widest := 0
          column := 0
          taken := headerLength
          inLine := false }
      blockFrom folded header.chomping least start (characters.drop headerLength)

end PipelineWaves.Yaml
