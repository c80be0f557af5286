/-!
# Tokens of scripts

The form of the scripts that the sandbox runs, and their words, operators and redirections. A
word is a list of parts that are expanded one after the other; what stands inside a command
substitution, an arithmetic expression or a default value keeps its source. Quotes and
backslashes are resolved into parts of words; comments and joined lines disappear.
-/

set_option autoImplicit false

namespace PipelineWaves.Sandbox

inductive ParameterUse where
  | value
  | length
  | orElse (unlessEmpty : Bool) (source : String)
  | orAssign (unlessEmpty : Bool) (source : String)
  | orFail (unlessEmpty : Bool) (source : String)
  | instead (unlessEmpty : Bool) (source : String)
  | cutFront (longest : Bool) (source : String)
  | cutBack (longest : Bool) (source : String)
  | invalid
deriving DecidableEq, Repr

inductive WordPart where
  | plain (text : String)
  | quoted (text : String)
  | parameter (name : String) (use : ParameterUse) (inQuotes : Bool)
  | output (source : String) (inQuotes : Bool)
  | number (source : String) (inQuotes : Bool)
deriving DecidableEq, Repr

abbrev Word : Type := List WordPart

inductive RedirectionKind where
  | read
  | readWrite
  | write
  | append
  | duplicate
  /-- A text that stands in the script itself. -/
  | here (body : Word)
deriving DecidableEq, Repr

structure Redirection where
  descriptor : Nat
  kind : RedirectionKind
  target : Word
deriving DecidableEq, Repr

inductive Script where
  | nothing
  | simple (line : Nat) (assignments : List (String × Word)) (words : List Word)
      (redirections : List Redirection)
  | pipeline (negated : Bool) (parts : List Script)
  | both (first second : Script)
  | andThen (first second : Script)
  | orElse (first second : Script)
  | choose (test body other : Script)
  | loop (untilTrue : Bool) (test body : Script)
  | forEach (name : String) (words : Option (List Word)) (body : Script)
  | select (subject : Word) (arms : List (List Word × Script))
  | group (isolated : Bool) (body : Script)
  | redirected (body : Script) (redirections : List Redirection)
  | define (name : String) (body : Script)

/-- Commands whose errors end the script and whose assignments stay. -/
def specialCommands : List String :=
  [":", ".", "break", "continue", "eval", "exec", "exit", "export", "local", "readonly", "return",
    "set", "shift", "times", "trap", "unset"]

inductive ScriptFault where
  | unterminatedQuote
  | unfinishedBackquote
  | missing (closing : String)
  | badLoopVariable
  | badFunctionName
  /-- What was found and what should have stood there, both as they are shown. -/
  | unexpected (found : String) (expected : Option String)
deriving DecidableEq, Repr

namespace ScriptFault

def text : ScriptFault → String
  | unterminatedQuote => "Syntax error: Unterminated quoted string"
  | unfinishedBackquote => "Syntax error: EOF in backquote substitution"
  | missing closing => "Syntax error: Missing '" ++ closing ++ "'"
  | badLoopVariable => "Syntax error: Bad for loop variable"
  | badFunctionName => "Syntax error: Bad function name"
  | unexpected found none => s!"Syntax error: {found} unexpected"
  | unexpected found (some expected) =>
      s!"Syntax error: {found} unexpected (expecting {expected})"

end ScriptFault

structure Misreading where
  line : Nat
  fault : ScriptFault
deriving DecidableEq, Repr

/-- The tokens of a script; the last one is always an ending. -/
inductive Token where
  | word (line : Nat) (word : Word)
  | operator (line : Nat) (text : String)
  | redirect (line descriptor : Nat) (operator : String)
  /-- A redirection from the text with the given number. -/
  | here (line descriptor number : Nat)
  /-- The end, how it is shown, and why the text behind it cannot be read. -/
  | ending (line : Nat) (shown : String) (fault : Option ScriptFault)

namespace Token

def line : Token → Nat
  | word line _ => line
  | operator line _ => line
  | redirect line _ _ => line
  | here line _ _ => line
  | ending line _ _ => line

def shownSign (sign : String) : String := "\"" ++ sign ++ "\""

def endOfFile : String := "end of file"

/-- Words that are reserved where a command can begin. -/
def reservedWords : List String :=
  ["!", "case", "do", "done", "elif", "else", "esac", "fi", "for", "if", "in", "then", "until",
    "while", "\x7b", "\x7d"]

def shown : Token → String
  | word _ [.plain text] => if reservedWords.contains text then shownSign text else "word"
  | word _ _ => "word"
  | operator _ "\n" => "newline"
  | operator _ text => shownSign text
  | redirect _ _ _ => "redirection"
  | here _ _ _ => "redirection"
  | ending _ shown _ => shown

/-- The misreading at a token that cannot stand where it stands. -/
def misreading (expected : Option String) (token : Token) : Misreading :=
  match token with
  | ending line _ (some fault) => ⟨line, fault⟩
  | other => ⟨other.line, .unexpected other.shown expected⟩

def isNameStart (character : Char) : Bool := character.isAlpha || character = '_'

def isNameCharacter (character : Char) : Bool := character.isAlphanum || character = '_'

def isName (characters : List Char) : Bool :=
  match characters with
  | [] => false
  | first :: rest => isNameStart first && rest.all isNameCharacter

/-- How far into quotes and brackets a scan is. -/
structure Nesting where
  depth : Nat
  quote : Option Char
  escaped : Bool

/-- What stands before the bracket that closes the current one, and what stands behind it. -/
def closing (opening closed : Char) (nesting : Nesting) (taken : List Char) :
    List Char → Option (List Char × List Char)
  | [] => none
  | character :: rest =>
      let next (nesting : Nesting) := closing opening closed nesting (character :: taken) rest
      if nesting.escaped then next { nesting with escaped := false }
      else
        match nesting.quote with
        | some '\'' =>
            if character = '\'' then next { nesting with quote := none } else next nesting
        | some quote =>
            if character = '\\' then next { nesting with escaped := true }
            else if character = quote then next { nesting with quote := none }
            else next nesting
        | none =>
            if character = '\\' then next { nesting with escaped := true }
            else if character = '\'' || character = '"' then
              next { nesting with quote := some character }
            else if character = opening then next { nesting with depth := nesting.depth + 1 }
            else if character = closed then
              match nesting.depth with
              | 0 => some (taken.reverse, rest)
              | depth + 1 => next { nesting with depth }
            else next nesting

def bracketed (opening closed : Char) (characters : List Char) :
    Option (List Char × List Char) :=
  closing opening closed ⟨0, none, false⟩ [] characters

/-- The form of a parameter between braces, from what follows its name. -/
def useOf (rest : List Char) : Option ParameterUse :=
  let text (characters : List Char) : String := String.ofList characters
  match rest with
  | [] => some .value
  | ':' :: '-' :: source => some (.orElse true (text source))
  | ':' :: '=' :: source => some (.orAssign true (text source))
  | ':' :: '?' :: source => some (.orFail true (text source))
  | ':' :: '+' :: source => some (.instead true (text source))
  | '-' :: source => some (.orElse false (text source))
  | '=' :: source => some (.orAssign false (text source))
  | '?' :: source => some (.orFail false (text source))
  | '+' :: source => some (.instead false (text source))
  | '%' :: '%' :: source => some (.cutBack true (text source))
  | '%' :: source => some (.cutBack false (text source))
  | '#' :: '#' :: source => some (.cutFront true (text source))
  | '#' :: source => some (.cutFront false (text source))
  | _ => none

def isSpecialParameter (character : Char) : Bool :=
  ['@', '*', '#', '?', '$', '!', '-'].contains character

def bracedName (characters : List Char) : List Char :=
  match characters with
  | [] => []
  | first :: rest =>
      if isNameStart first then first :: rest.takeWhile isNameCharacter
      else if first.isDigit then first :: rest.takeWhile Char.isDigit
      else if isSpecialParameter first then [first]
      else []

def braced (inQuotes : Bool) (characters : List Char) : WordPart :=
  match characters with
  | '#' :: second :: rest =>
      let name := bracedName (second :: rest)
      let use : ParameterUse := if name.length = rest.length + 1 then .length else .invalid
      .parameter (String.ofList name) use inQuotes
  | _ =>
      let name := bracedName characters
      let use := if name.isEmpty then none else useOf (characters.drop name.length)
      .parameter (String.ofList name) (use.getD .invalid) inQuotes

def dollar (inQuotes : Bool) (characters : List Char) :
    Except ScriptFault (WordPart × List Char) :=
  let literal : WordPart := if inQuotes then .quoted "$" else .plain "$"
  match characters with
  | '(' :: rest =>
      match bracketed '(' ')' rest with
      | none =>
          if rest.head? = some '(' then .error (.missing "))")
          else .error (.unexpected endOfFile (some (shownSign ")")))
      | some (inner, behind) =>
          match inner.head?, inner.getLast? with
          | some '(', some ')' =>
              .ok (.number (String.ofList ((inner.drop 1).dropLast)) inQuotes, behind)
          | _, _ => .ok (.output (String.ofList inner) inQuotes, behind)
  | '\x7b' :: rest =>
      match bracketed '\x7b' '\x7d' rest with
      | none => .error (if inQuotes then .unterminatedQuote else .missing "\x7d")
      | some (inner, behind) => .ok (braced inQuotes inner, behind)
  | first :: rest =>
      if isNameStart first then
        let name := first :: rest.takeWhile isNameCharacter
        .ok (.parameter (String.ofList name) .value inQuotes, rest.dropWhile isNameCharacter)
      else if first.isDigit || isSpecialParameter first then
        .ok (.parameter (String.ofList [first]) .value inQuotes, rest)
      else .ok (literal, characters)
  | [] => .ok (literal, [])

def backquoted (taken : List Char) : List Char → Option (List Char × List Char)
  | [] => none
  | '\x60' :: rest => some (taken.reverse, rest)
  | '\\' :: next :: rest =>
      if next = '\x60' || next = '\\' || next = '$' then backquoted (next :: taken) rest
      else backquoted (next :: '\\' :: taken) rest
  | character :: rest => backquoted (character :: taken) rest

def addQuoted (text : String) : Word → Word
  | .quoted before :: rest => .quoted (before ++ text) :: rest
  | parts => .quoted text :: parts

def addPlain (text : String) : Word → Word
  | .plain before :: rest => .plain (before ++ text) :: rest
  | parts => .plain text :: parts

/-- Characters that a backslash protects between double quotes. -/
def isProtected (character : Char) : Bool :=
  ['$', '\x60', '"', '\\'].contains character

def quotedParts (ends : Bool) : Nat → Word → List Char → Except ScriptFault (Word × List Char)
  | 0, _, _ => .error .unterminatedQuote
  | steps + 1, parts, characters =>
      match characters with
      | [] => if ends then .error .unterminatedQuote else .ok (parts, [])
      | '"' :: rest =>
          if ends then .ok (parts, rest) else quotedParts ends steps (addQuoted "\"" parts) rest
      | '\\' :: '\n' :: rest => quotedParts ends steps parts rest
      | '\\' :: next :: rest =>
          if isProtected next then
            quotedParts ends steps (addQuoted (String.ofList [next]) parts) rest
          else quotedParts ends steps (addQuoted (String.ofList ['\\', next]) parts) rest
      | '$' :: rest =>
          match dollar true rest with
          | .ok (part, behind) => quotedParts ends steps (part :: parts) behind
          | .error fault => .error fault
      | '\x60' :: rest =>
          match backquoted [] rest with
          | some (inner, behind) =>
              quotedParts ends steps (.output (String.ofList inner) true :: parts) behind
          | none => .error .unfinishedBackquote
      | character :: rest =>
          quotedParts ends steps (addQuoted (String.ofList [character]) parts) rest

def endsWord (character : Char) : Bool :=
  [' ', '\t', '\n', ';', '&', '|', '<', '>', '(', ')'].contains character

/-- Reads a word; `toEnd` takes all characters as part of it. -/
def wordParts (toEnd : Bool) : Nat → Word → List Char → Except ScriptFault (Word × List Char)
  | 0, _, _ => .error .unterminatedQuote
  | steps + 1, parts, characters =>
      match characters with
      | [] => .ok (parts, [])
      | '\\' :: '\n' :: rest => wordParts toEnd steps parts rest
      | ['\\'] => .ok (addQuoted "\\" parts, [])
      | '\\' :: next :: rest =>
          wordParts toEnd steps (addQuoted (String.ofList [next]) parts) rest
      | '\'' :: rest =>
          let inner := rest.takeWhile fun character => character ≠ '\''
          match rest.drop inner.length with
          | [] => .error .unterminatedQuote
          | _ :: behind =>
              wordParts toEnd steps (addQuoted (String.ofList inner) parts) behind
      | '"' :: rest =>
          match quotedParts true steps (addQuoted "" parts) rest with
          | .ok (parts, behind) => wordParts toEnd steps parts behind
          | .error fault => .error fault
      | '$' :: rest =>
          match dollar false rest with
          | .ok (part, behind) => wordParts toEnd steps (part :: parts) behind
          | .error fault => .error fault
      | '\x60' :: rest =>
          match backquoted [] rest with
          | some (inner, behind) =>
              wordParts toEnd steps (.output (String.ofList inner) false :: parts) behind
          | none => .error .unfinishedBackquote
      | character :: rest =>
          if endsWord character && !toEnd then .ok (parts, characters)
          else wordParts toEnd steps (addPlain (String.ofList [character]) parts) rest

def wordOf (source : String) : Except ScriptFault Word :=
  let characters := source.toList
  (wordParts true (characters.length + 1) [] characters).map fun found => found.1.reverse

def quotedWordOf (source : String) : Except ScriptFault Word :=
  let characters := source.toList
  (quotedParts false (characters.length + 1) [] characters).map fun found => found.1.reverse

/-- A text that is still to be read: its number, last line, and how it is taken. -/
structure PendingText where
  lastLine : String
  dropsTabs : Bool
  expands : Bool

/-- The lines before the last line of a text, and what follows that line if it is there. -/
def takeText (pending : PendingText) : List String → List String × Option (List String)
  | [] => ([], none)
  | line :: rest =>
      let line :=
        if pending.dropsTabs then String.ofList (line.toList.dropWhile fun c => c = '\t')
        else line
      if line = pending.lastLine then ([], some rest)
      else
        let (lines, behind) := takeText pending rest
        (line :: lines, behind)

def textWord (pending : PendingText) (lines : List String) (closed : Bool) :
    Except ScriptFault Word :=
  let body :=
    if closed then String.join (lines.map fun line => line ++ "\n") else "\n".intercalate lines
  if pending.expands then quotedWordOf body else .ok [.quoted body]

def takeTexts : List PendingText → List String → Except ScriptFault (List Word × List String)
  | [], lines => .ok ([], lines)
  | pending :: others, lines => do
      let (body, behind) := takeText pending lines
      let word ← textWord pending body behind.isSome
      let (words, rest) ← takeTexts others (behind.getD [])
      .ok (word :: words, rest)

structure Tokens where
  line : Nat
  /-- The latest token stands first. -/
  found : List Token
  pending : List PendingText
  texts : List Word

namespace Tokens

def start : Tokens := ⟨1, [], [], []⟩

def push (tokens : Tokens) (token : Token) : Tokens :=
  { tokens with found := token :: tokens.found }

/-- Ends a line and reads the texts that it asked for. -/
def endLine (tokens : Tokens) (rest : List Char) : Except ScriptFault (Tokens × List Char) := do
  let tokens := { tokens with line := tokens.line + 1 }
  let tokens := tokens.push (.operator tokens.line "\n")
  if tokens.pending.isEmpty then .ok (tokens, rest)
  else
    let lines := (String.ofList rest).splitOn "\n"
    let (words, behind) ← takeTexts tokens.pending lines
    let taken := lines.length - behind.length
    .ok ({ tokens with pending := [], texts := tokens.texts ++ words, line := tokens.line + taken },
      ("\n".intercalate behind).toList)

end Tokens

def operators : List String := [";;", "&&", "||", ";", "&", "|", "(", ")"]

def redirections : List (String × Nat) :=
  [("<<-", 0), ("<<", 0), (">>", 1), (">&", 1), ("<&", 0), (">|", 1), ("<>", 0), ("<", 0),
    (">", 1)]

def beginsWith (text : String) (characters : List Char) : Bool :=
  text.toList.isPrefixOf characters

/-- The word of a text's last line, without its quotes. -/
def lastLineOf (word : Word) : String × Bool :=
  let piece : WordPart → String
    | .plain text => text
    | .quoted text => text
    | _ => ""
  let isQuoted : WordPart → Bool
    | .quoted _ => true
    | _ => false
  (String.join (word.map piece), word.any isQuoted)

def isLineEnd (character : Char) : Bool := character = '\n'

/-- The line that a fault is reported for: most of them are seen at the end of the text. -/
def faultLine (line : Nat) (fault : ScriptFault) (rest : List Char) : Nat :=
  match fault with
  | .missing "\x7d" => line
  | _ => line + rest.countP isLineEnd

def scan (shown : String) : Nat → Tokens → List Char → Tokens
  | 0, tokens, _ => tokens.push (.ending tokens.line shown none)
  | steps + 1, tokens, characters =>
      let stopped (fault : ScriptFault) : Tokens :=
        tokens.push (.ending (faultLine tokens.line fault characters) shown (some fault))
      match characters with
      | [] => tokens.push (.ending tokens.line shown none)
      | '\\' :: '\n' :: rest => scan shown steps { tokens with line := tokens.line + 1 } rest
      | '\n' :: rest =>
          match tokens.endLine rest with
          | .ok (tokens, rest) => scan shown steps tokens rest
          | .error fault => stopped fault
      | '#' :: rest => scan shown steps tokens (rest.dropWhile fun c => !isLineEnd c)
      | first :: rest =>
          if first = ' ' || first = '\t' then scan shown steps tokens rest
          else
            let digits := characters.takeWhile Char.isDigit
            let behindDigits := characters.drop digits.length
            match redirections.find? fun entry => beginsWith entry.1 behindDigits with
            | some (symbol, standard) =>
                let descriptor :=
                  if digits.isEmpty then standard else (String.ofList digits).toNat?.getD standard
                let behind := behindDigits.drop symbol.length
                let redirect : Token := .redirect tokens.line descriptor symbol
                if symbol = "<<" || symbol = "<<-" then
                  let target := behind.dropWhile fun c => c = ' ' || c = '\t'
                  match wordParts false (target.length + 1) [] target with
                  | .error fault => stopped fault
                  | .ok ([], behind) => scan shown steps (tokens.push redirect) behind
                  | .ok (parts, behind) =>
                      let (lastLine, isQuoted) := lastLineOf parts.reverse
                      let number := tokens.texts.length + tokens.pending.length
                      let pending : PendingText := ⟨lastLine, symbol = "<<-", !isQuoted⟩
                      let tokens := { tokens with pending := tokens.pending ++ [pending] }
                      scan shown steps (tokens.push (.here tokens.line descriptor number)) behind
                else scan shown steps (tokens.push redirect) behind
            | none =>
                match operators.find? fun symbol => beginsWith symbol characters with
                | some symbol =>
                    scan shown steps (tokens.push (.operator tokens.line symbol))
                      (characters.drop symbol.length)
                | none =>
                    match wordParts false (characters.length + 1) [] characters with
                    | .error fault => stopped fault
                    | .ok (parts, behind) =>
                        let used := characters.length - behind.length
                        let lines := (characters.take used).countP isLineEnd
                        let token := Token.word tokens.line parts.reverse
                        scan shown steps
                          { tokens.push token with line := tokens.line + lines } behind

/-- The tokens of a script and the texts that it holds for redirections. -/
def ofScript (shown source : String) : List Token × List Word :=
  let characters := source.toList
  let tokens := scan shown (characters.length + 1) Tokens.start characters
  (tokens.found.reverse, tokens.texts)

end Token

end PipelineWaves.Sandbox
