import PipelineWaves.Sandbox.ScriptToken

/-!
# Reading scripts

From tokens to scripts. Lists join pipelines, pipelines join commands; a command
is simple or begins with a reserved word. The reading of a list calls itself for
what stands inside compound commands, with one level of depth less each time.
A script is read line by line: the commands before a line that cannot be read
are there to be run.
-/

set_option autoImplicit false

namespace PipelineWaves.Sandbox

/-- The commands of a script, line by line, and why reading stopped before its end. -/
structure Reading where
  lines : List Script
  fault : Option Misreading

namespace Script

/-- Something read from the front of the tokens, and the tokens behind it. -/
abbrev Found (Result : Type) : Type := Result × List Token

abbrev Reader (Result : Type) : Type := List Token → Except Misreading (Found Result)

/-- The text of a word that can be a reserved one: it has no quotes. -/
def bareWord? : Token → Option String
  | .word _ [.plain text] => some text
  | _ => none

def isBare (text : String) (token : Token) : Bool := bareWord? token = some text

def isOperator (text : String) : Token → Bool
  | .operator _ found => found = text
  | _ => false

def isEnding : Token → Bool
  | .ending _ _ _ => true
  | _ => false

def unexpected (expected : Option String) (tokens : List Token) : Misreading :=
  match tokens with
  | [] => ⟨0, .unexpected Token.endOfFile expected⟩
  | token :: _ => token.misreading expected

/-- A fault at the first of some tokens, unless nothing readable stands there. -/
def faulty (fault : ScriptFault) (tokens : List Token) : Misreading :=
  match tokens with
  | .ending line _ (some unreadable) :: _ => ⟨line, unreadable⟩
  | token :: _ => ⟨token.line, fault⟩
  | [] => ⟨0, fault⟩

def skipNewlines (tokens : List Token) : List Token :=
  tokens.dropWhile (isOperator "\n")

def expectFirst (isExpected : Token → Bool) (shown : String) (tokens : List Token) :
    Except Misreading (List Token) :=
  match tokens with
  | token :: rest =>
      if isExpected token then .ok rest else .error (unexpected (some shown) tokens)
  | [] => .error (unexpected (some shown) [])

def expectBare (text : String) : List Token → Except Misreading (List Token) :=
  expectFirst (isBare text) (Token.shownSign text)

def expectOperator (text : String) : List Token → Except Misreading (List Token) :=
  expectFirst (isOperator text) (Token.shownSign text)

/-- What a list of commands ends with when it stands inside another command. -/
def closers : List String := ["then", "else", "elif", "fi", "do", "done", "esac", "\x7d"]

def isCloser (token : Token) : Bool :=
  match bareWord? token with
  | some text => closers.contains text
  | none => isOperator ")" token || isOperator ";;" token || isEnding token

def kindOf (operator : String) : RedirectionKind :=
  if operator = "<" then .read
  else if operator = "<>" then .readWrite
  else if operator = ">>" then .append
  else if operator = ">&" || operator = "<&" then .duplicate
  else .write

def redirection? (texts : List Word) : Reader (Option Redirection) := fun tokens =>
  match tokens with
  | .redirect _ descriptor operator :: rest =>
      match rest with
      | .word _ target :: rest => .ok (some ⟨descriptor, kindOf operator, target⟩, rest)
      | other => .error (unexpected none other)
  | .here _ descriptor number :: rest =>
      .ok (some ⟨descriptor, .here (texts[number]?.getD []), []⟩, rest)
  | other => .ok (none, other)

def redirections (texts : List Word) : Nat → Reader (List Redirection)
  | 0, tokens => .ok ([], tokens)
  | steps + 1, tokens => do
      let (found, rest) ← redirection? texts tokens
      match found with
      | none => .ok ([], rest)
      | some redirection =>
          let (others, rest) ← redirections texts steps rest
          .ok (redirection :: others, rest)

/-- Splits a word of the form name and value. -/
def assignment? (word : Word) : Option (String × Word) :=
  match word with
  | .plain text :: rest =>
      let characters := text.toList
      let name := characters.takeWhile fun character => character ≠ '='
      match characters.drop name.length with
      | [] => none
      | _ :: value =>
          if Token.isName name then
            let value : Word := if value.isEmpty then [] else [.plain (String.ofList value)]
            some (String.ofList name, value ++ rest)
          else none
  | _ => none

/-- A simple command in the making. -/
structure Draft where
  assignments : List (String × Word)
  words : List Word
  redirections : List Redirection

def simpleFrom (texts : List Word) : Nat → Draft → Reader Draft
  | 0, draft, tokens => .ok (draft, tokens)
  | steps + 1, draft, tokens =>
      match tokens with
      | .word _ word :: rest =>
          match assignment? word, draft.words with
          | some assignment, [] =>
              simpleFrom texts steps
                { draft with assignments := draft.assignments ++ [assignment] } rest
          | _, _ => simpleFrom texts steps { draft with words := draft.words ++ [word] } rest
      | _ => do
          let (found, rest) ← redirection? texts tokens
          match found with
          | some redirection =>
              simpleFrom texts steps
                { draft with redirections := draft.redirections ++ [redirection] } rest
          | none => .ok (draft, rest)

def simpleCommand (texts : List Word) (tokens : List Token) : Except Misreading (Found Script) := do
  let (draft, rest) ← simpleFrom texts tokens.length ⟨[], [], []⟩ tokens
  match draft, rest with
  | ⟨[], [_], []⟩, token :: behind =>
      -- a single word before a bracket begins the definition of a function
      if isOperator "(" token then .error (unexpected (some (Token.shownSign ")")) behind)
      else .ok (.simple ((tokens.head?.map Token.line).getD 1) [] draft.words [], rest)
  | _, _ =>
      .ok (.simple ((tokens.head?.map Token.line).getD 1) draft.assignments draft.words
        draft.redirections, rest)

section Compound

-- Reads a list of commands; the flag says whether there has to be one.
variable (list : Bool → Reader Script)

def choiceEnd (steps : Nat) (tokens : List Token) : Except Misreading (Found Script) :=
  match steps with
  | 0 => .error (unexpected (some (Token.shownSign "fi")) tokens)
  | steps + 1 =>
      match tokens with
      | token :: rest =>
          if isBare "else" token then do
            let (body, rest) ← list true rest
            let rest ← expectBare "fi" rest
            .ok (body, rest)
          else if isBare "elif" token then do
            let (test, rest) ← list true rest
            let rest ← expectBare "then" rest
            let (body, rest) ← list true rest
            let (other, rest) ← choiceEnd steps rest
            .ok (.choose test body other, rest)
          else (expectBare "fi" tokens).map fun rest => (.nothing, rest)
      | [] => .error (unexpected (some (Token.shownSign "fi")) [])

def choice (tokens : List Token) : Except Misreading (Found Script) := do
  let (test, rest) ← list true tokens
  let rest ← expectBare "then" rest
  let (body, rest) ← list true rest
  let (other, rest) ← choiceEnd list (rest.length + 1) rest
  .ok (.choose test body other, rest)

def loopBody (tokens : List Token) : Except Misreading (Found Script) := do
  let rest ← expectBare "do" tokens
  let (body, rest) ← list true rest
  let rest ← expectBare "done" rest
  .ok (body, rest)

def loopFrom (untilTrue : Bool) (tokens : List Token) : Except Misreading (Found Script) := do
  let (test, rest) ← list true tokens
  let (body, rest) ← loopBody list rest
  .ok (.loop untilTrue test body, rest)

def wordsFrom : List Token → List Word × List Token
  | .word _ word :: rest =>
      let (words, behind) := wordsFrom rest
      (word :: words, behind)
  | tokens => ([], tokens)

def isName (text : String) : Bool := Token.isName text.toList

/-- The words of a loop and the end of their line. -/
def loopWords (tokens : List Token) : Except Misreading (Found (List Word)) :=
  let (words, behind) := wordsFrom tokens
  match behind with
  | token :: rest =>
      if isOperator ";" token || isOperator "\n" token then .ok (words, rest)
      else .error (unexpected none behind)
  | [] => .error (unexpected none [])

def forEachFrom (tokens : List Token) : Except Misreading (Found Script) :=
  match (tokens.head?.bind bareWord?).filter isName with
  | none => .error (faulty .badLoopVariable tokens)
  | some name =>
      match skipNewlines (tokens.drop 1) with
      | next :: behind =>
          if isBare "in" next then do
            let (words, behind) ← loopWords behind
            let (body, rest) ← loopBody list (skipNewlines behind)
            .ok (.forEach name (some words) body, rest)
          else do
            let behind := if isOperator ";" next then behind else next :: behind
            let (body, rest) ← loopBody list (skipNewlines behind)
            .ok (.forEach name none body, rest)
      | [] => .error (unexpected (some (Token.shownSign "do")) [])

def patterns : Nat → Reader (List Word)
  | 0, tokens => .error (unexpected (some (Token.shownSign ")")) tokens)
  | steps + 1, tokens =>
      match tokens with
      | .word _ word :: rest =>
          if (rest.head?.map (isOperator "|")).getD false then do
            let (others, rest) ← patterns steps (rest.drop 1)
            .ok (word :: others, rest)
          else (expectOperator ")" rest).map fun rest => ([word], rest)
      | token :: behind =>
          .error (unexpected (some (Token.shownSign ")"))
            (if isEnding token then tokens else behind))
      | [] => .error (unexpected (some (Token.shownSign ")")) [])

def arms : Nat → Reader (List (List Word × Script))
  | 0, tokens => .error (unexpected (some (Token.shownSign ")")) tokens)
  | steps + 1, tokens =>
      match skipNewlines tokens with
      | [] => .error (unexpected (some (Token.shownSign ")")) [])
      | token :: rest =>
          if isBare "esac" token then .ok ([], rest)
          else do
            let start := if isOperator "(" token then rest else token :: rest
            let (words, rest) ← patterns (start.length + 1) start
            let (body, rest) ← list false rest
            let rest := skipNewlines rest
            let arm := (words, body)
            if (rest.head?.map (isBare "esac")).getD false then .ok ([arm], rest.drop 1)
            else
              let rest ← expectOperator ";;" rest
              let (others, rest) ← arms steps rest
              .ok (arm :: others, rest)

def selectFrom (tokens : List Token) : Except Misreading (Found Script) :=
  match tokens with
  | .word _ subject :: rest => do
      let rest ← expectBare "in" (skipNewlines rest)
      let (found, rest) ← arms list (rest.length + 1) rest
      .ok (.select subject found, rest)
  | other => .error (unexpected (some "word") other)

def compound? (tokens : List Token) : Option (Except Misreading (Found Script)) :=
  match tokens with
  | [] => none
  | token :: rest =>
      if isOperator "(" token then
        some do
          let (body, rest) ← list true rest
          let rest ← expectOperator ")" rest
          .ok (.group true body, rest)
      else
        match bareWord? token with
        | some "if" => some (choice list rest)
        | some "while" => some (loopFrom list false rest)
        | some "until" => some (loopFrom list true rest)
        | some "for" => some (forEachFrom list rest)
        | some "case" => some (selectFrom list rest)
        | some "\x7b" =>
            some do
              let (body, rest) ← list true rest
              let rest ← expectBare "\x7d" rest
              .ok (.group false body, rest)
        | _ => none

/-- A compound command with its redirections. -/
def withRedirections (texts : List Word) (read : Except Misreading (Found Script)) :
    Except Misreading (Found Script) := do
  let (script, rest) ← read
  let (found, rest) ← redirections texts rest.length rest
  .ok (if found.isEmpty then script else .redirected script found, rest)

/-- Whether a token can begin a simple command. -/
def beginsSimple : Token → Bool
  | .word _ [.plain text] => !Token.reservedWords.contains text
  | .word _ _ => true
  | .redirect _ _ _ => true
  | .here _ _ _ => true
  | _ => false

/-- A function can be named like any variable, but not like a command that belongs to the form
of scripts. -/
def canNameFunction (name : String) : Bool :=
  isName name && !specialCommands.contains name

def command (texts : List Word) : Nat → Reader Script
  | 0, tokens => .error (unexpected none tokens)
  | steps + 1, tokens =>
      match compound? list tokens, tokens with
      | some read, _ => withRedirections texts read
      | none, token :: openBracket :: closedBracket :: rest =>
          let isWord :=
            match token with
            | .word _ word => beginsSimple token && (assignment? word).isNone
            | _ => false
          if isWord && isOperator "(" openBracket && isOperator ")" closedBracket then
            match (bareWord? token).filter canNameFunction with
            | some name => do
                let (body, rest) ← command texts steps (skipNewlines rest)
                .ok (.define name body, rest)
            | none => .error ⟨closedBracket.line, .badFunctionName⟩
          else if beginsSimple token then simpleCommand texts tokens
          else .error (unexpected none tokens)
      | none, token :: _ =>
          if beginsSimple token then simpleCommand texts tokens
          else .error (unexpected none tokens)
      | none, [] => .error (unexpected none [])

def pipelineParts (texts : List Word) : Nat → Reader (List Script)
  | 0, tokens => .error (unexpected none tokens)
  | steps + 1, tokens => do
      let (first, rest) ← command list texts (tokens.length + 1) tokens
      match rest with
      | token :: behind =>
          if isOperator "|" token then do
            let (others, rest) ← pipelineParts texts steps (skipNewlines behind)
            .ok (first :: others, rest)
          else .ok ([first], rest)
      | [] => .ok ([first], [])

def pipelineFrom (texts : List Word) (tokens : List Token) : Except Misreading (Found Script) := do
  let negated := (tokens.head?.map (isBare "!")).getD false
  let start := if negated then tokens.drop 1 else tokens
  let (parts, rest) ← pipelineParts list texts (start.length + 1) start
  match parts, negated with
  | [only], false => .ok (only, rest)
  | parts, negated => .ok (.pipeline negated parts, rest)

def chain (texts : List Word) : Nat → Script → Reader Script
  | 0, first, tokens => .ok (first, tokens)
  | steps + 1, first, tokens =>
      match tokens with
      | token :: rest =>
          if isOperator "&&" token then do
            let (second, rest) ← pipelineFrom list texts (skipNewlines rest)
            chain texts steps (.andThen first second) rest
          else if isOperator "||" token then do
            let (second, rest) ← pipelineFrom list texts (skipNewlines rest)
            chain texts steps (.orElse first second) rest
          else .ok (first, tokens)
      | [] => .ok (first, [])

def chainFrom (texts : List Word) (tokens : List Token) : Except Misreading (Found Script) := do
  let (first, rest) ← pipelineFrom list texts tokens
  chain list texts (rest.length + 1) first rest

end Compound

def isSeparator (token : Token) : Bool := isOperator ";" token || isOperator "&" token

/-- Reads commands up to a token that closes a list, at least one of them if that is `needed`. -/
def listFrom (texts : List Word) (list : Bool → Reader Script) :
    Nat → Bool → Reader Script
  | 0, _, tokens => .ok (.nothing, tokens)
  | steps + 1, needed, tokens =>
      let tokens := skipNewlines tokens
      let closes (token : Token) : Bool := isEnding token || (!needed && isCloser token)
      if (tokens.head?.map closes).getD true then .ok (.nothing, tokens)
      else do
        let (first, rest) ← chainFrom list texts tokens
        match rest with
        | next :: behind =>
            if isSeparator next || isOperator "\n" next then do
              let (others, rest) ← listFrom texts list steps false behind
              .ok (.both first others, rest)
            else .ok (first, rest)
        | [] => .ok (first, [])

def list (texts : List Word) : Nat → Bool → Reader Script
  | 0, _, tokens => .error (unexpected none tokens)
  | depth + 1, needed, tokens =>
      listFrom texts (list texts depth) (tokens.length + 1) needed tokens

/-- The deepest nesting of compound commands. -/
def deepest : Nat := 200

def lineFrom (texts : List Word) : Nat → Reader Script
  | 0, tokens => .error (unexpected none tokens)
  | steps + 1, tokens => do
      let (first, rest) ← chainFrom (list texts deepest) texts tokens
      match rest with
      | [] => .ok (first, [])
      | next :: behind =>
          let ends (tokens : List Token) : Bool :=
            match tokens with
            | [] => true
            | .ending _ _ fault :: _ => fault.isNone
            | token :: _ => isOperator "\n" token
          if ends rest then .ok (first, rest)
          else if isSeparator next then
            if ends behind then .ok (first, behind)
            else do
              let (others, rest) ← lineFrom texts steps behind
              .ok (.both first others, rest)
          else .error (unexpected none rest)

def linesFrom (texts : List Word) : Nat → List Token → Reading
  | 0, _ => ⟨[], none⟩
  | steps + 1, tokens =>
      match skipNewlines tokens with
      | [] => ⟨[], none⟩
      | .ending line _ fault :: _ => ⟨[], fault.map fun fault => ⟨line, fault⟩⟩
      | tokens =>
          match lineFrom texts (tokens.length + 1) tokens with
          | .error misreading => ⟨[], some misreading⟩
          | .ok (line, rest) =>
              let others := linesFrom texts steps rest
              { others with lines := line :: others.lines }

def read (source : String) : Reading :=
  let (tokens, texts) := Token.ofScript Token.endOfFile source
  linesFrom texts (tokens.length + 1) tokens

/-- Reads what stands between the brackets of a command substitution. -/
def readInner (source : String) : Except Misreading Script := do
  let (tokens, texts) := Token.ofScript (Token.shownSign ")") source
  let (script, rest) ← list texts deepest false tokens
  match rest with
  | .ending _ _ none :: _ => .ok script
  | _ => .error (unexpected (some (Token.shownSign ")")) rest)

end Script

end PipelineWaves.Sandbox
