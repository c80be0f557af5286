import PipelineWaves.Shape.Error
import PipelineWaves.Yaml.Node

/-!
# Meanings of scalars

A plain scalar may be written like an absent value, a boolean or a number; all
others are texts. A tag of the core schema asks for one of these kinds. Digits
behind a leading zero are a text.
-/

set_option autoImplicit false

namespace PipelineWaves

inductive YamlValue where
  | absent
  | boolean (value : Bool)
  | integer (value : Int)
  /-- An integer that needs more than 64 bits. -/
  | wide (value : Int)
  | real (value : Binary64)
  | text (value : String)

namespace YamlValue

def absentWords : List String := ["null", "Null", "NULL", "~"]

def isAbsentWord (text : String) : Bool := absentWords.contains text

def boolean? (text : String) : Option Bool :=
  if ["true", "True", "TRUE"].contains text then some true
  else if ["false", "False", "FALSE"].contains text then some false
  else none

def digitValue? (base : Nat) (digit : Char) : Option Nat :=
  let value :=
    if digit.isDigit then some (digit.toNat - '0'.toNat)
    else if 'a' ≤ digit && digit ≤ 'f' then some (digit.toNat - 'a'.toNat + 10)
    else if 'A' ≤ digit && digit ≤ 'F' then some (digit.toNat - 'A'.toNat + 10)
    else none
  value.filter fun value => value < base

/-- The digits read from left to right, behind a value that is known. -/
def naturalFrom (base value : Nat) : List Char → Option Nat
  | [] => some value
  | digit :: rest =>
      match digitValue? base digit with
      | some next => naturalFrom base (value * base + next) rest
      | none => none

def natural? (base : Nat) (digits : List Char) : Option Nat :=
  if digits.isEmpty then none else naturalFrom base 0 digits

/-- Whether a number has a superfluous zero in front, so that it is a text. -/
def hasLeadingZero (characters : List Char) : Bool :=
  let unsigned :=
    match characters with
    | '-' :: rest => rest
    | '+' :: rest => rest
    | other => other
  match unsigned with
  | '0' :: next :: rest => (next :: rest).all Char.isDigit
  | _ => false

/-- A natural number behind its sign, in a base that two characters name. -/
def based? : List Char → Option Nat
  | '0' :: 'x' :: digits => natural? 16 digits
  | '0' :: 'o' :: digits => natural? 8 digits
  | '0' :: 'b' :: digits => natural? 2 digits
  | _ => none

def integer? (text : String) : Option Int :=
  let characters := text.toList
  let magnitude? (digits : List Char) : Option Nat :=
    match based? digits with
    | some value => some value
    | none => if hasLeadingZero characters then none else natural? 10 digits
  match characters with
  | '+' :: digits => (magnitude? digits).map Int.ofNat
  | '-' :: digits => (magnitude? digits).map fun value => -Int.ofNat value
  | digits => (magnitude? digits).map Int.ofNat

def isNarrow (value : Int) : Bool := -Int.pow 2 63 ≤ value && value < Int.pow 2 64

def isWide (value : Int) : Bool := -Int.pow 2 127 ≤ value && value < Int.pow 2 128

def ofInteger? (text : String) : Option YamlValue :=
  match integer? text with
  | some value =>
      if isNarrow value then some (.integer value)
      else if isWide value then some (.wide value)
      else none
  | none => none

def exponent? : List Char → Option Int
  | [] => some 0
  | letter :: rest =>
      if letter = 'e' || letter = 'E' then
        match rest with
        | '-' :: digits => (natural? 10 digits).map fun value => -Int.ofNat value
        | '+' :: digits => (natural? 10 digits).map Int.ofNat
        | digits => (natural? 10 digits).map Int.ofNat
      else none

/-- A decimal number with digits on at least one side of its point. -/
def decimal? (negative : Bool) (characters : List Char) : Option Binary64 :=
  let whole := characters.takeWhile Char.isDigit
  let afterWhole := characters.drop whole.length
  let fraction :=
    match afterWhole with
    | '.' :: rest => rest.takeWhile Char.isDigit
    | _ => []
  let behind :=
    match afterWhole with
    | '.' :: rest => rest.drop fraction.length
    | other => other
  match natural? 10 (whole ++ fraction), exponent? behind with
  | some digits, some exponent =>
      some (Binary64.ofDecimal negative digits (exponent - fraction.length))
  | _, _ => none

def infinityWords : List String := [".inf", ".Inf", ".INF"]

/-- A real number; one that is too large for its format is none. -/
def real? (text : String) : Option Binary64 :=
  if [".nan", ".NaN", ".NAN"].contains text then some .notANumber
  else
    let characters := text.toList
    let (negative, unsigned) :=
      match characters with
      | '-' :: rest => (true, rest)
      | '+' :: rest => (false, rest)
      | other => (false, other)
    if infinityWords.contains (String.ofList unsigned) then some (.infinite negative)
    else (decimal? negative unsigned).filter fun value => !value.isInfinite

def coreTag (name : String) : String := "tag:yaml.org,2002:" ++ name

def ofPlain (text : String) : YamlValue :=
  if text = "" || isAbsentWord text then .absent
  else
    match boolean? text with
    | some value => .boolean value
    | none =>
        match ofInteger? text with
        | some value => value
        | none =>
            match (if hasLeadingZero text.toList then none else real? text) with
            | some value => .real value
            | none => .text text

def required (text expected : String) : Option YamlValue → Except ShapeError YamlValue
  | some value => .ok value
  | none => .error (.wrongValue (.text text) expected)

/-- Whether a tag is one of the text's own, without a registered meaning. -/
def isLocalTag (tag : String) : Bool := tag.toList.head? = some '!'

def ofScalar (tag : Option String) (plain : Bool) (text : String) :
    Except ShapeError YamlValue :=
  match tag with
  | none => .ok (if plain then ofPlain text else .text text)
  | some tag =>
      if tag = coreTag "bool" then required text "a boolean" ((boolean? text).map .boolean)
      else if tag = coreTag "int" then required text "an integer" (ofInteger? text)
      else if tag = coreTag "float" then required text "a float" ((real? text).map .real)
      else if tag = coreTag "null" then
        required text "null" (if isAbsentWord text then some .absent else none)
      else if isLocalTag tag && plain then .ok (ofPlain text)
      else .ok (.text text)

def found : YamlValue → Found
  | absent => .absent
  | boolean value => .boolean value
  | integer value => .integer value
  | wide value =>
      .other (s!"integer \x60{value}\x60 as " ++ if value < 0 then "i128" else "u128")
  | real value => .real value
  | text value => .text value

end YamlValue

end PipelineWaves
