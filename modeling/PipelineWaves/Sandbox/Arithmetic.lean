/-!
# Arithmetic of scripts

Expressions over whole numbers of 64 bits with the usual operators. Variables
are looked up by a function; a variable that holds no number counts as zero.
-/

set_option autoImplicit false

namespace PipelineWaves.Sandbox

namespace Arithmetic

inductive Token where
  | number (value : Int)
  | name (name : String)
  | operator (text : String)
  /-- A character that no expression has. -/
  | foreign (character : Char)
deriving DecidableEq, Repr

inductive Fault where
  | divisionByZero
  | noOperand
  | noClosingBracket
  | noColon
  | noEnd
  /-- A variable holds a text that is no number. -/
  | noNumber (text : String)
deriving DecidableEq, Repr

def Fault.reason : Fault → String
  | divisionByZero => "division by zero"
  | noOperand => "expecting primary"
  | noClosingBracket => "expecting ')'"
  | noColon => "expecting ':'"
  | noEnd => "expecting EOF"
  | noNumber text => text

def wrapped (value : Int) : Int := value.bmod (Nat.pow 2 64)

def digitValue (character : Char) : Nat :=
  if character.isDigit then character.toNat - '0'.toNat
  else character.toLower.toNat - 'a'.toNat + 10

def valueOf (base : Nat) (digits : List Char) : Int :=
  digits.foldl (fun value digit => value * base + digitValue digit) (0 : Nat)

def isHexDigit (character : Char) : Bool :=
  character.isDigit || ('a' ≤ character.toLower && character.toLower ≤ 'f')

def greatest : Int := Int.pow 2 63 - 1

/-- A number at the front; a leading zero means octal, and an x behind it hexadecimal. -/
def numberAt (characters : List Char) : Int × List Char :=
  let read (base : Nat) (isDigit : Char → Bool) (rest : List Char) : Int × List Char :=
    let digits := rest.takeWhile isDigit
    (min greatest (valueOf base digits), rest.drop digits.length)
  let isOctal (character : Char) : Bool := '0' ≤ character && character ≤ '7'
  match characters with
  | '0' :: x :: digit :: rest =>
      if (x = 'x' || x = 'X') && isHexDigit digit then read 16 isHexDigit (digit :: rest)
      else read 8 isOctal characters
  | '0' :: _ => read 8 isOctal characters
  | _ => read 10 Char.isDigit characters

def operators : List String :=
  ["<<=", ">>=", "<<", ">>", "<=", ">=", "==", "!=", "&&", "||", "+=", "-=", "*=", "/=", "%=",
    "+", "-", "*", "/", "%", "<", ">", "=", "!", "~", "&", "|", "^", "?", ":", "(", ")"]

def tokensFrom : Nat → List Char → List Token
  | 0, _ => []
  | _, [] => []
  | steps + 1, first :: rest =>
      if first.isWhitespace then tokensFrom steps rest
      else if first.isDigit then
        let (value, behind) := numberAt (first :: rest)
        .number value :: tokensFrom steps behind
      else if first.isAlpha || first = '_' then
        let isPart (c : Char) : Bool := c.isAlphanum || c = '_'
        let name := first :: rest.takeWhile isPart
        .name (String.ofList name) :: tokensFrom steps (rest.dropWhile isPart)
      else
        match operators.find? fun text => text.toList.isPrefixOf (first :: rest) with
        | some text => .operator text :: tokensFrom steps ((first :: rest).drop text.length)
        | none => .foreign first :: tokensFrom steps rest

/-- How tightly a binary operator binds. -/
def strength? : String → Option Nat
  | "||" => some 1
  | "&&" => some 2
  | "|" => some 3
  | "^" => some 4
  | "&" => some 5
  | "==" => some 6
  | "!=" => some 6
  | "<" => some 7
  | ">" => some 7
  | "<=" => some 7
  | ">=" => some 7
  | "<<" => some 8
  | ">>" => some 8
  | "+" => some 9
  | "-" => some 9
  | "*" => some 10
  | "/" => some 10
  | "%" => some 10
  | _ => none

def truth (value : Bool) : Int := if value then 1 else 0

def onBits (operation : Nat → Nat → Nat) (left right : Int) : Int :=
  wrapped (operation (left % Int.pow 2 64).toNat (right % Int.pow 2 64).toNat)

def apply (operator : String) (left right : Int) : Except Fault Int :=
  match operator with
  | "||" => .ok (truth (left ≠ 0 || right ≠ 0))
  | "&&" => .ok (truth (left ≠ 0 && right ≠ 0))
  | "|" => .ok (onBits Nat.lor left right)
  | "^" => .ok (onBits Nat.xor left right)
  | "&" => .ok (onBits Nat.land left right)
  | "==" => .ok (truth (left = right))
  | "!=" => .ok (truth (left ≠ right))
  | "<" => .ok (truth (left < right))
  | ">" => .ok (truth (right < left))
  | "<=" => .ok (truth (left ≤ right))
  | ">=" => .ok (truth (right ≤ left))
  | "<<" => .ok (wrapped (left * Int.pow 2 (right % 64).toNat))
  | ">>" => .ok (left / Int.pow 2 (right % 64).toNat)
  | "+" => .ok (wrapped (left + right))
  | "-" => .ok (wrapped (left - right))
  | "*" => .ok (wrapped (left * right))
  | "/" => if right = 0 then .error .divisionByZero else .ok (wrapped (left.tdiv right))
  | "%" => if right = 0 then .error .divisionByZero else .ok (left.tmod right)
  | _ => .error .noOperand

/-- A value and the tokens behind it. -/
abbrev Found : Type := Int × List Token

section

variable (lookUp : String → Except Fault Int) (expression : List Token → Except Fault Found)

def unary : Nat → List Token → Except Fault Found
  | 0, _ => .error .noOperand
  | steps + 1, tokens =>
      match tokens with
      | .number value :: rest => .ok (value, rest)
      | .name name :: rest => (lookUp name).map fun value => (value, rest)
      | .operator "(" :: rest => do
          let (value, rest) ← expression rest
          match rest with
          | .operator ")" :: rest => .ok (value, rest)
          | _ => .error .noClosingBracket
      | .operator "-" :: rest => do
          let (value, rest) ← unary steps rest
          .ok (wrapped (-value), rest)
      | .operator "+" :: rest => unary steps rest
      | .operator "!" :: rest => do
          let (value, rest) ← unary steps rest
          .ok (truth (value = 0), rest)
      | .operator "~" :: rest => do
          let (value, rest) ← unary steps rest
          .ok (wrapped (-value - 1), rest)
      | _ => .error .noOperand

/-- Goes on with operators that bind at least as tightly as `weakest`. -/
def binary : Nat → Nat → Int → List Token → Except Fault Found
  | 0, _, _, _ => .error .noOperand
  | steps + 1, weakest, left, tokens =>
      match tokens with
      | .operator text :: rest =>
          match strength? text with
          | none => .ok (left, tokens)
          | some strength =>
              if strength < weakest then .ok (left, tokens)
              else do
                let (right, rest) ← unary lookUp expression (rest.length + 1) rest
                let (right, rest) ← binary steps (strength + 1) right rest
                let value ← apply text left right
                binary steps weakest value rest
      | _ => .ok (left, tokens)

def conditional (tokens : List Token) : Except Fault Found := do
  let (first, rest) ← unary lookUp expression (tokens.length + 1) tokens
  let (value, rest) ← binary lookUp expression (rest.length + 1) 1 first rest
  match rest with
  | .operator "?" :: rest => do
      let (first, rest) ← expression rest
      match rest with
      | .operator ":" :: rest => do
          let (second, rest) ← expression rest
          .ok (if value = 0 then second else first, rest)
      | _ => .error .noColon
  | rest => .ok (value, rest)

end

def expression (lookUp : String → Except Fault Int) : Nat → List Token → Except Fault Found
  | 0, _ => .error .noOperand
  | depth + 1, tokens => conditional lookUp (expression lookUp depth) tokens

def whole (lookUp : String → Except Fault Int) (tokens : List Token) : Except Fault Int := do
  let (value, rest) ← expression lookUp (tokens.length + 1) tokens
  if rest.isEmpty then .ok value else .error .noEnd

/-- The value of an expression, and the assignment it makes at its front. -/
def evaluate (lookUp : String → Except Fault Int) (source : String) :
    Except Fault (Int × Option (String × Int)) := do
  let characters := source.toList
  let tokens := tokensFrom (characters.length + 1) characters
  match tokens with
  | .name name :: .operator "=" :: rest => do
      let value ← whole lookUp rest
      .ok (value, some (name, value))
  | .name name :: .operator text :: rest =>
      if text.length ≥ 2 && text.endsWith "=" && (strength? text).isNone then do
        let right ← whole lookUp rest
        let value ← apply (String.ofList text.toList.dropLast) (← lookUp name) right
        .ok (value, some (name, value))
      else do .ok (← whole lookUp tokens, none)
  | _ => do .ok (← whole lookUp tokens, none)

/-- A number with blanks and a sign before it, and what follows it; nothing if there is none. -/
def signedAt? (characters : List Char) : Option (Int × List Char) :=
  let characters := characters.dropWhile Char.isWhitespace
  let (negative, digits) :=
    match characters with
    | '-' :: rest => (true, rest)
    | '+' :: rest => (false, rest)
    | other => (false, other)
  if (digits.head?.map Char.isDigit).getD false then
    let (value, rest) := numberAt digits
    some (if negative then -value else value, rest)
  else none

/-- The number that a variable holds; a blank text counts as zero. -/
def ofText (text : String) : Except Fault Int :=
  let characters := text.toList
  if characters.all Char.isWhitespace then .ok 0
  else
    match signedAt? characters with
    | some (value, rest) =>
        if rest.all Char.isWhitespace then .ok value else .error (.noNumber text)
    | none => .error (.noNumber text)

end Arithmetic

end PipelineWaves.Sandbox
