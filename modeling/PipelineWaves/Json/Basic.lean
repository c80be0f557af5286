import PipelineWaves.Number.Shortest

/-!
# JSON values and their text

`Json` is a JSON value; an object keeps its fields in the order in which they
were given. `compact` writes a value on one line, `pretty` with one item per
line and two blanks per depth. Text is written as it is, apart from quotes,
backslashes and control characters.
-/

set_option autoImplicit false

namespace PipelineWaves

inductive JsonNumber where
  | integer (value : Int)
  | real (value : Binary64)
deriving DecidableEq, Repr

inductive Json where
  | null
  | boolean (value : Bool)
  | number (value : JsonNumber)
  | text (value : String)
  | list (items : List Json)
  | object (fields : List (String × Json))
deriving Repr

namespace JsonNumber

def text : JsonNumber → String
  | integer value => toString value
  | real value => value.inNotation

end JsonNumber

namespace Json

def natural (value : Nat) : Json := .number (.integer value)

/-- A text, or `null` when there is none. -/
def ofOption (value : Option String) : Json :=
  match value with
  | some content => .text content
  | none => .null

def hexDigits (value width : Nat) : List Char :=
  let digits := Nat.toDigits 16 value
  List.replicate (width - digits.length) '0' ++ digits

def escapeCharacter (character : Char) : List Char :=
  if character = '"' then ['\\', '"']
  else if character = '\\' then ['\\', '\\']
  else if character = '\n' then ['\\', 'n']
  else if character = '\r' then ['\\', 'r']
  else if character = '\t' then ['\\', 't']
  else if character = '\x08' then ['\\', 'b']
  else if character = '\x0c' then ['\\', 'f']
  else if character.toNat < 0x20 then '\\' :: 'u' :: hexDigits character.toNat 4
  else [character]

/-- A text between quotes. -/
def quoted (text : String) : String :=
  "\"" ++ String.ofList (text.toList.flatMap escapeCharacter) ++ "\""

mutual

/-- The value on one line, without blanks. -/
def compact : Json → String
  | .null => "null"
  | .boolean value => if value then "true" else "false"
  | .number value => value.text
  | .text value => quoted value
  | .list items => "[" ++ compactItems items ++ "]"
  | .object fields => "\x7b" ++ compactFields fields ++ "\x7d"

def compactItems : List Json → String
  | [] => ""
  | [item] => compact item
  | item :: rest => compact item ++ "," ++ compactItems rest

def compactFields : List (String × Json) → String
  | [] => ""
  | [(name, value)] => quoted name ++ ":" ++ compact value
  | (name, value) :: rest => quoted name ++ ":" ++ compact value ++ "," ++ compactFields rest

end

def indentation (depth : Nat) : String :=
  "\n" ++ String.ofList (List.replicate (2 * depth) ' ')

mutual

/-- The value with one item or field per line. -/
def prettyAt (depth : Nat) : Json → String
  | .list [] => "[]"
  | .object [] => "\x7b\x7d"
  | .list items => "[" ++ prettyItems (depth + 1) items ++ indentation depth ++ "]"
  | .object fields => "\x7b" ++ prettyFields (depth + 1) fields ++ indentation depth ++ "\x7d"
  | other => compact other

def prettyItems (depth : Nat) : List Json → String
  | [] => ""
  | [item] => indentation depth ++ prettyAt depth item
  | item :: rest => indentation depth ++ prettyAt depth item ++ "," ++ prettyItems depth rest

def prettyFields (depth : Nat) : List (String × Json) → String
  | [] => ""
  | [(name, value)] => indentation depth ++ quoted name ++ ": " ++ prettyAt depth value
  | (name, value) :: rest =>
      indentation depth ++ quoted name ++ ": " ++ prettyAt depth value ++ ","
        ++ prettyFields depth rest

end

def pretty (value : Json) : String := prettyAt 0 value

end Json

end PipelineWaves
