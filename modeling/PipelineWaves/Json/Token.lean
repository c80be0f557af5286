import PipelineWaves.Json.Basic
import PipelineWaves.Text.Bytes

/-!
# JSON tokens

JSON text is cut into tokens up to the first place where no token can be read;
a `broken` token marks that place. A fault tells only whether the text is wrong
there or ends too early. Texts and numbers keep a fault of their own: half a
surrogate pair or a number without a finite value matters only to a reader that
wants the value.

Integers stay exact within 64 bits. Other numbers keep the leading digits that
fit 64 bits, and that count is then scaled by powers of ten in binary64, one
rounding per step.
-/

set_option autoImplicit false

namespace PipelineWaves

inductive TextFault where
  | malformed
  | unfinished
deriving DecidableEq, Repr

inductive JsonToken where
  | openList
  | closeList
  | openObject
  | closeObject
  | colon
  | comma
  | null
  | boolean (value : Bool)
  | number (value : Except TextFault JsonNumber)
  | text (value : Except TextFault String)
  | broken (quoted : Bool) (fault : TextFault)

namespace JsonToken

def isBlank (character : Char) : Bool :=
  character = ' ' || character = '\n' || character = '\t' || character = '\r'

/-- The fault of a text that goes on with `rest` where something else is needed. -/
def faultAt (rest : List Char) : TextFault :=
  if rest.isEmpty then .unfinished else .malformed

def wordLimit : Nat := Nat.pow 2 64

def digitValue (character : Char) : Nat := character.toNat - '0'.toNat

/-- Appends digits to a count while it stays within 64 bits; also how many fitted. -/
def takeDigits (count : Nat) : List Char → Nat × Nat
  | [] => (count, 0)
  | digit :: rest =>
      let next := count * 10 + digitValue digit
      if next < wordLimit then
        let taken := takeDigits next rest
        (taken.1, taken.2 + 1)
      else (count, 0)

/-- A count times a power of ten, where one power of ten reaches up to the exponent 308. -/
def scaleByTen : Nat → Binary64 → Int → Option Binary64
  | 0, value, _ => if value.isZero then some value else none
  | fuel + 1, value, power =>
      if power.natAbs ≤ 308 then
        if 0 ≤ power then
          let product := value.times (Binary64.ofDecimal false 1 power)
          if product.isInfinite then none else some product
        else some (value.dividedBy (Binary64.ofDecimal false 1 (-power)))
      else if value.isZero then some value
      else if 0 ≤ power then none
      else scaleByTen fuel (value.dividedBy (Binary64.ofDecimal false 1 308)) (power + 308)

def signed (negative : Bool) (value : Binary64) : Binary64 :=
  if negative then value.negate else value

def realNumber (negative : Bool) (count : Nat) (power : Int) : Except TextFault JsonNumber :=
  match scaleByTen 4 (Binary64.ofNat count) power with
  | some value => .ok (.real (signed negative value))
  | none => .error .malformed

def integerNumber (negative : Bool) (count : Nat) : JsonNumber :=
  if !negative then .integer count
  else if count = 0 || Nat.pow 2 63 < count then .real (signed true (Binary64.ofNat count))
  else .integer (-(count : Int))

def exponentLimit : Nat := Nat.pow 2 31

/-- The value of a number from its digits before and after the point and its exponent. -/
def numberValue (negative : Bool) (whole fraction : List Char)
    (exponent : Option (Bool × List Char)) : Except TextFault JsonNumber :=
  let (count, taken) := takeDigits 0 whole
  let dropped := whole.length - taken
  match fraction, exponent with
  | [], none =>
      if dropped = 0 then .ok (integerNumber negative count)
      else realNumber negative count dropped
  | _, _ =>
      let (count, placed) := takeDigits count fraction
      let power : Int := (dropped : Int) - placed
      match exponent with
      | none => realNumber negative count power
      | some (down, digits) =>
          let size := digits.foldl (fun size digit => size * 10 + digitValue digit) 0
          if exponentLimit ≤ size then
            if count ≠ 0 && !down then .error .malformed
            else .ok (.real (Binary64.zero negative))
          else realNumber negative count (if down then power - size else power + size)

def exponentPart (rest : List Char) :
    Except TextFault (Option (Bool × List Char) × List Char) :=
  match rest with
  | 'e' :: rest | 'E' :: rest =>
      let (down, rest) :=
        match rest with
        | '+' :: rest => (false, rest)
        | '-' :: rest => (true, rest)
        | rest => (false, rest)
      let digits := rest.takeWhile Char.isDigit
      let rest := rest.dropWhile Char.isDigit
      if digits.isEmpty then .error (faultAt rest) else .ok (some (down, digits), rest)
  | rest => .ok (none, rest)

def fractionPart (rest : List Char) : Except TextFault (List Char × List Char) :=
  match rest with
  | '.' :: rest =>
      let digits := rest.takeWhile Char.isDigit
      let rest := rest.dropWhile Char.isDigit
      if digits.isEmpty then .error (faultAt rest) else .ok (digits, rest)
  | rest => .ok ([], rest)

/-- A number whose sign has been read: no leading zero before another digit. -/
def scanNumber (negative : Bool) (characters : List Char) :
    Except TextFault (Except TextFault JsonNumber × List Char) := do
  let whole := characters.takeWhile Char.isDigit
  let rest := characters.dropWhile Char.isDigit
  if whole.isEmpty then .error (faultAt rest)
  else if whole.head? = some '0' && 1 < whole.length then .error .malformed
  else
    let (fraction, rest) ← fractionPart rest
    let (exponent, rest) ← exponentPart rest
    .ok (numberValue negative whole fraction exponent, rest)

def hexValue (character : Char) : Option Nat :=
  if character.isDigit then some (digitValue character)
  else if 'a' ≤ character ∧ character ≤ 'f' then some (character.toNat - 'a'.toNat + 10)
  else if 'A' ≤ character ∧ character ≤ 'F' then some (character.toNat - 'A'.toNat + 10)
  else none

def hexUnit : List Char → Except TextFault Nat
  | first :: second :: third :: fourth :: _ =>
      match hexValue first, hexValue second, hexValue third, hexValue fourth with
      | some a, some b, some c, some d => .ok (((a * 16 + b) * 16 + c) * 16 + d)
      | _, _, _, _ => .error .malformed
  | short =>
      if Text.byteLength short < 4 then .error .unfinished else .error .malformed

def escapeValue : Char → Option Char
  | '"' => some '"'
  | '\\' => some '\\'
  | '/' => some '/'
  | 'b' => some '\x08'
  | 'f' => some '\x0c'
  | 'n' => some '\n'
  | 'r' => some '\r'
  | 't' => some '\t'
  | _ => none

/-- A piece of a text: a character, or one 16-bit unit of an escape. -/
inductive Piece where
  | character (value : Char)
  | unit (value : Nat)

structure ScannedText where
  pieces : List Piece
  /-- What follows the closing quote, or the fault that stops the text. -/
  after : Except TextFault (List Char)

namespace ScannedText

def withPiece (piece : Piece) (scanned : ScannedText) : ScannedText :=
  { scanned with pieces := piece :: scanned.pieces }

end ScannedText

/-- The pieces of a text up to its closing quote. -/
def scanText (characters : List Char) : ScannedText :=
  match characters with
  | [] => ⟨[], .error .unfinished⟩
  | '"' :: rest => ⟨[], .ok rest⟩
  | ['\\'] => ⟨[], .error .unfinished⟩
  | '\\' :: 'u' :: rest =>
      match hexUnit rest with
      | .error fault => ⟨[], .error fault⟩
      | .ok value => (scanText (rest.drop 4)).withPiece (.unit value)
  | '\\' :: escape :: rest =>
      match escapeValue escape with
      | some value => (scanText rest).withPiece (.character value)
      | none => ⟨[], .error .malformed⟩
  | character :: rest =>
      if character.toNat < 0x20 then ⟨[], .error .malformed⟩
      else (scanText rest).withPiece (.character character)
termination_by characters.length
decreasing_by all_goals simp; try omega

def isHighUnit (value : Nat) : Bool := 0xD800 ≤ value && value ≤ 0xDBFF
def isLowUnit (value : Nat) : Bool := 0xDC00 ≤ value && value ≤ 0xDFFF

/-- Joins surrogate pairs; `ending` is the fault after the last piece, if there is one. -/
def joinPieces (ending : Option TextFault) : List Piece → Except TextFault (List Char)
  | [] =>
      match ending with
      | some fault => .error fault
      | none => .ok []
  | .character value :: rest => (joinPieces ending rest).map (value :: ·)
  | [.unit value] =>
      if isHighUnit value then .error (ending.getD .malformed)
      else if isLowUnit value then .error .malformed
      else
        match ending with
        | some fault => .error fault
        | none => .ok [Char.ofNat value]
  | .unit high :: .unit low :: rest =>
      if isHighUnit high then
        if isLowUnit low then
          let point := 0x10000 + (high - 0xD800) * 0x400 + (low - 0xDC00)
          (joinPieces ending rest).map (Char.ofNat point :: ·)
        else .error .malformed
      else if isLowUnit high then .error .malformed
      else (joinPieces ending (.unit low :: rest)).map (Char.ofNat high :: ·)
  | .unit value :: .character next :: rest =>
      if isHighUnit value || isLowUnit value then .error .malformed
      else (joinPieces ending rest).map fun tail => Char.ofNat value :: next :: tail

namespace ScannedText

def ending? (scanned : ScannedText) : Option TextFault :=
  match scanned.after with
  | .ok _ => none
  | .error fault => some fault

def value (scanned : ScannedText) : Except TextFault String :=
  (joinPieces scanned.ending? scanned.pieces).map String.ofList

end ScannedText

def scanWord : List Char → List Char → Except TextFault (List Char)
  | [], rest => .ok rest
  | _ :: _, [] => .error .unfinished
  | wanted :: more, found :: rest =>
      if wanted = found then scanWord more rest else .error .malformed

/-- One token and what follows it; a fault stops the scan. -/
def scanOne (first : Char) (rest : List Char) : JsonToken × Option (List Char) :=
  let word (token : JsonToken) (letters : List Char) : JsonToken × Option (List Char) :=
    match scanWord letters rest with
    | .ok after => (token, some after)
    | .error fault => (.broken false fault, none)
  let numeral (negative : Bool) (characters : List Char) : JsonToken × Option (List Char) :=
    match scanNumber negative characters with
    | .ok (value, after) => (.number value, some after)
    | .error fault => (.broken false fault, none)
  if first = '[' then (.openList, some rest)
  else if first = ']' then (.closeList, some rest)
  else if first = '\x7b' then (.openObject, some rest)
  else if first = '\x7d' then (.closeObject, some rest)
  else if first = ':' then (.colon, some rest)
  else if first = ',' then (.comma, some rest)
  else if first = 'n' then word .null ['u', 'l', 'l']
  else if first = 't' then word (.boolean true) ['r', 'u', 'e']
  else if first = 'f' then word (.boolean false) ['a', 'l', 's', 'e']
  else if first = '-' then numeral true rest
  else if first.isDigit then numeral false (first :: rest)
  else if first = '"' then
    let scanned := scanText rest
    match scanned.after, scanned.value with
    | .ok after, value => (.text value, some after)
    | .error _, .error fault => (.broken true fault, none)
    | .error fault, .ok _ => (.broken true fault, none)
  else (.broken false .malformed, none)

def scan : Nat → List Char → List JsonToken
  | 0, _ => []
  | _ + 1, [] => []
  | fuel + 1, first :: rest =>
      if isBlank first then scan fuel rest
      else
        match scanOne first rest with
        | (token, none) => [token]
        | (token, some after) => token :: scan fuel after

def scanAll (source : String) : List JsonToken :=
  let characters := source.toList
  scan characters.length characters

end JsonToken

end PipelineWaves
