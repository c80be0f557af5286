import PipelineWaves.Sandbox.Utility

/-!
# Utilities for texts

Programs that read files or their standard input and write what they find there. Lines are
searched by expressions in a basic and in an extended form, which differ in the signs that
need a backslash.
-/

set_option autoImplicit false

namespace PipelineWaves.Sandbox

namespace Matching

inductive Atom where
  | character (character : Char)
  | any
  | among (negated : Bool) (ranges : List (Char × Char))
deriving DecidableEq, Repr

/-- Places that take no characters. -/
inductive Edge where
  | lineStart
  | lineEnd
deriving DecidableEq, Repr

inductive Expression where
  | empty
  | one (atom : Atom)
  | edge (edge : Edge)
  | both (first second : Expression)
  | either (first second : Expression)
  /-- At least so often, and at most so often if there is a bound. -/
  | repeated (inner : Expression) (least : Nat) (most : Option Nat)
deriving DecidableEq, Repr

/-- What is searched, and whether letters count the same in both cases. -/
structure Line where
  characters : Array Char
  folded : Bool

def accepts (folded : Bool) (atom : Atom) (found : Char) : Bool :=
  let variants := if folded then [found, found.toLower, found.toUpper] else [found]
  match atom with
  | .character wanted => variants.contains wanted
  | .any => true
  | .among negated ranges =>
      let isInside (c : Char) : Bool := ranges.any fun range => range.1 ≤ c && c ≤ range.2
      variants.any isInside != negated

def isEdge (line : Line) (position : Nat) : Edge → Bool
  | .lineStart => position = 0
  | .lineEnd => position = line.characters.size

/-- Where repeating a step may end; beyond the least number every round has to take something. -/
def repetitions (step : Nat → List Nat) : Nat → Nat → Option Nat → List Nat → List Nat
  | 0, _, _, _ => []
  | rounds + 1, least, most, positions =>
      let finished := if least = 0 then positions else []
      if positions.isEmpty || most = some 0 then finished
      else
        let next := positions.flatMap fun position =>
          (step position).filter fun after => least > 0 || position < after
        let most := most.map fun most => most - 1
        repetitions step rounds (least - 1) most next.eraseDups ++ finished

/-- All positions at which an expression may end that begins at a position. -/
def ends (line : Line) : Expression → Nat → List Nat
  | .empty, position => [position]
  | .one atom, position =>
      match line.characters[position]? with
      | some found => if accepts line.folded atom found then [position + 1] else []
      | none => []
  | .edge edge, position => if isEdge line position edge then [position] else []
  | .both first second, position =>
      ((ends line first position).flatMap (ends line second)).eraseDups
  | .either first second, position => (ends line first position ++ ends line second position).eraseDups
  | .repeated inner least most, position =>
      let rounds := line.characters.size + least + 2
      (repetitions (ends line inner) rounds least most [position]).eraseDups

def occurs (expression : Expression) (line : Line) : Bool :=
  (List.range (line.characters.size + 1)).any fun start => !(ends line expression start).isEmpty

inductive Symbol where
  | opening
  | closing
  | bar
  | times (least : Nat) (most : Option Nat)
  | atom (atom : Atom)
  | edge (edge : Edge)
deriving DecidableEq, Repr

def classRanges : String → Option (List (Char × Char))
  | "upper" => some [('A', 'Z')]
  | "lower" => some [('a', 'z')]
  | "alpha" => some [('A', 'Z'), ('a', 'z')]
  | "digit" => some [('0', '9')]
  | "xdigit" => some [('0', '9'), ('A', 'F'), ('a', 'f')]
  | "alnum" => some [('0', '9'), ('A', 'Z'), ('a', 'z')]
  | "space" => some [('\t', '\r'), (' ', ' ')]
  | "blank" => some [('\t', '\t'), (' ', ' ')]
  | "punct" => some [('!', '/'), (':', '@'), ('[', '\x60'), ('\x7b', '~')]
  | "cntrl" => some [('\x00', '\x1f'), ('\x7f', '\x7f')]
  | "print" => some [(' ', '~')]
  | "graph" => some [('!', '~')]
  | _ => none

def wordRanges : List (Char × Char) := [('0', '9'), ('A', 'Z'), ('_', '_'), ('a', 'z')]

def spaceRanges : List (Char × Char) := [('\t', '\r'), (' ', ' ')]

/-- The ranges of a class up to its closing bracket, and what follows; a bracket at the front
stands for itself. -/
def rangesFrom : Nat → Bool → List Char → Option (List (Char × Char) × List Char)
  | 0, _, _ => none
  | _, _, [] => none
  | steps + 1, _, '[' :: ':' :: rest =>
      let name := rest.takeWhile fun c => c ≠ ':'
      match classRanges (String.ofList name), rest.drop name.length with
      | some ranges, ':' :: ']' :: behind =>
          (rangesFrom steps false behind).map fun found => (ranges ++ found.1, found.2)
      | _, _ =>
          (rangesFrom steps false (':' :: rest)).map fun found =>
            (('[', '[') :: found.1, found.2)
  | steps + 1, isFirst, first :: rest =>
      if first = ']' && !isFirst then some ([], rest)
      else
        let (range, behind) :=
          match rest with
          | '-' :: high :: behind =>
              if high = ']' then ((first, first), rest) else ((first, high), behind)
          | _ => ((first, first), rest)
        (rangesFrom steps false behind).map fun found => (range :: found.1, found.2)

def classAt (characters : List Char) : Option (Atom × List Char) :=
  let negated := characters.head? = some '^'
  let inner := if negated then characters.drop 1 else characters
  (rangesFrom (inner.length + 1) true inner).map fun found =>
    (.among negated found.1, found.2)

/-- The bounds of a repetition up to a sign that closes them. -/
def boundsAt (closing : List Char) (characters : List Char) :
    Option ((Nat × Option Nat) × List Char) :=
  let least := characters.takeWhile Char.isDigit
  let rest := characters.drop least.length
  let number (digits : List Char) : Nat := (String.ofList digits).toNat?.getD 0
  let (bounds, rest) :=
    match rest with
    | ',' :: rest =>
        let most := rest.takeWhile Char.isDigit
        ((number least, if most.isEmpty then none else some (number most)),
          rest.drop most.length)
    | rest => ((number least, some (number least)), rest)
  if !least.isEmpty && closing.isPrefixOf rest then some (bounds, rest.drop closing.length)
  else none

/-- What a letter behind a backslash stands for. -/
def escaped (character : Char) : Symbol :=
  match character with
  | 'w' => .atom (.among false wordRanges)
  | 'W' => .atom (.among true wordRanges)
  | 's' => .atom (.among false spaceRanges)
  | 'S' => .atom (.among true spaceRanges)
  | other => .atom (.character other)

def signAt (sign : Char) (closing rest : List Char) : Option (Symbol × List Char) :=
  match sign with
  | '(' => some (.opening, rest)
  | ')' => some (.closing, rest)
  | '|' => some (.bar, rest)
  | '+' => some (.times 1 none, rest)
  | '?' => some (.times 0 (some 1), rest)
  | '\x7b' =>
      (boundsAt closing rest).map fun found => (.times found.1.1 found.1.2, found.2)
  | _ => none

/-- Whether a new part of an expression begins behind the latest symbol. -/
def beginsPart (latest : Option Symbol) : Bool :=
  match latest with
  | none => true
  | some .opening => true
  | some .bar => true
  | some (.edge .lineStart) => true
  | _ => false

def endsPart (extended : Bool) (rest : List Char) : Bool :=
  match rest with
  | [] => true
  | '\\' :: ')' :: _ => !extended
  | '\\' :: '|' :: _ => !extended
  | _ => extended

def symbolAt (extended : Bool) (latest : Option Symbol) (first : Char)
    (rest : List Char) : Symbol × List Char :=
  let plain : Symbol × List Char := (.atom (.character first), rest)
  match first, rest with
  | '\\', next :: behind =>
      if extended then (escaped next, behind)
      else (signAt next ['\\', '\x7d'] behind).getD (escaped next, behind)
  | '.', rest => (.atom .any, rest)
  | '[', rest =>
      match classAt rest with
      | some (atom, behind) => (.atom atom, behind)
      | none => plain
  | '*', rest => if beginsPart latest then plain else (.times 0 none, rest)
  | '^', rest => if extended || beginsPart latest then (.edge .lineStart, rest) else plain
  | '$', rest => if endsPart extended rest then (.edge .lineEnd, rest) else plain
  | first, rest =>
      if extended then (signAt first ['\x7d'] rest).getD plain else plain

def symbolsFrom (extended : Bool) : Nat → Option Symbol → List Char → List Symbol
  | 0, _, _ => []
  | _, _, [] => []
  | steps + 1, latest, first :: rest =>
      let (symbol, behind) := symbolAt extended latest first rest
      symbol :: symbolsFrom extended steps (some symbol) behind

abbrev Found : Type := Expression × List Symbol

/-- Repeats what stands before as often as the symbols behind it say. -/
def repeating (inner : Expression) : List Symbol → Found
  | .times least most :: rest => repeating (.repeated inner least most) rest
  | symbols => (inner, symbols)

section

-- Reads what stands between brackets.
variable (inner : List Symbol → Found)

def sequence : Nat → Expression → List Symbol → Found
  | 0, before, symbols => (before, symbols)
  | steps + 1, before, symbols =>
      let goOn (found : Expression) (rest : List Symbol) : Found :=
        let (part, rest) := repeating found rest
        sequence steps (.both before part) rest
      match symbols with
      | .atom atom :: rest => goOn (.one atom) rest
      | .edge edge :: rest => goOn (.edge edge) rest
      | .times _ _ :: rest => sequence steps before rest
      | .opening :: rest =>
          let (found, rest) := inner rest
          match rest with
          | .closing :: rest => goOn found rest
          | rest => goOn found rest
      | symbols => (before, symbols)

def alternatives : Nat → List Symbol → Found
  | 0, symbols => (.empty, symbols)
  | steps + 1, symbols =>
      let (first, rest) := sequence inner symbols.length .empty symbols
      match rest with
      | .bar :: rest =>
          let (second, rest) := alternatives steps rest
          (.either first second, rest)
      | rest => (first, rest)

end

def expressionFrom : Nat → List Symbol → Found
  | 0, symbols => (.empty, symbols)
  | depth + 1, symbols => alternatives (expressionFrom depth) (symbols.length + 1) symbols

def read (extended : Bool) (source : String) : Expression :=
  let characters := source.toList
  let symbols := symbolsFrom extended (characters.length + 1) none characters
  (expressionFrom (symbols.length + 1) symbols).1

def literal (source : String) : Expression :=
  source.toList.foldr (fun character rest => .both (.one (.character character)) rest) .empty

def anyOf : List Expression → Expression
  | [] => .empty
  | [only] => only
  | first :: rest => .either first (anyOf rest)

def wholeLine (expression : Expression) : Expression :=
  .both (.edge .lineStart) (.both expression (.edge .lineEnd))

end Matching

namespace TextUtility

def joinLines (lines : List String) : String := String.join (lines.map fun line => line ++ "\n")

def alignedRight (width : Nat) (text : String) : String :=
  String.ofList (List.replicate (width - text.length) ' ') ++ text

def cat (call : UtilityCall) : UtilityResult :=
  let (_, operands) := UtilityCall.splitOptions (fun c => c = 'u') call.arguments
  (call.forEachInput operands (Working.start call) call.plainComplaint
    fun working _ bytes => working.writeBytes bytes).result

/-- The value of an option, joined to its letter or in the next word; the rest stays. -/
def takeValue (letter : Char) : List String → Option String × List String
  | [] => (none, [])
  | word :: rest =>
      let (later, others) := takeValue letter rest
      match word.toList with
      | '-' :: first :: value =>
          if first = letter then
            if value.isEmpty then
              match rest with
              | next :: behind => (some next, behind)
              | [] => (none, [])
            else (some (String.ofList value), rest)
          else (later, word :: others)
      | _ => (later, word :: others)

/-- All values of an option that stands alone, and the other words. -/
def takeValues (option : String) : List String → List String × List String
  | [] => ([], [])
  | [word] => ([], [word])
  | word :: value :: rest =>
      if word = option then
        let (values, others) := takeValues option rest
        (value :: values, others)
      else
        let (values, others) := takeValues option (value :: rest)
        (values, word :: others)

structure Search where
  expression : Matching.Expression
  inverted : Bool
  folded : Bool

def Search.finds (search : Search) (text : String) : Bool :=
  Matching.occurs search.expression ⟨text.toList.toArray, search.folded⟩ != search.inverted

def searchOf (options : List Char) (source : String) : Search :=
  let read := if options.contains 'F' then Matching.literal else Matching.read (options.contains 'E')
  let expression := Matching.anyOf ((source.splitOn "\n").map read)
  let expression := if options.contains 'x' then Matching.wholeLine expression else expression
  ⟨expression, options.contains 'v', options.contains 'i'⟩

def searchInput (options : List Char) (search : Search) (named : Bool) (working : Working)
    (operand : String) (bytes : ByteArray) : Working :=
  let found := ((linesOf bytes).zipIdx 1).filter fun entry => search.finds entry.1
  let working := if found.isEmpty then working else working.ending 0
  let name := if operand = "-" then "(standard input)" else operand
  let label := if named then name ++ ":" else ""
  if options.contains 'q' then working
  else if options.contains 'c' then working.writeLine (label ++ toString found.length)
  else
    found.foldl
      (fun working entry =>
        let number := if options.contains 'n' then s!"{entry.2}:" else ""
        working.writeLine (label ++ number ++ entry.1)) working

def grep (call : UtilityCall) : UtilityResult :=
  let (given, words) := takeValues "-e" call.arguments
  let isOption (letter : Char) : Bool := "qvicnFEGxhs".toList.contains letter
  let (options, operands) := UtilityCall.splitOptions isOption words
  let working := { Working.start call with code := 1 }
  let (source, operands) :=
    if given.isEmpty then (operands.head?, operands.drop 1)
    else (some ("\n".intercalate given), operands)
  match source with
  | none => (working.complain 2 "Usage: grep [OPTION]... PATTERNS [FILE]...").result
  | some source =>
      let named := operands.length > 1 && !options.contains 'h'
      let finished := call.forEachInput operands working (fun _ _ => "")
        (searchInput options (searchOf options source) named)
      let faults := operands.filterMap fun operand =>
        match call.bytesOf working operand with
        | .ok _ => none
        | .error fault => some (call.plainComplaint operand fault)
      let complain (working : Working) (fault : String) : Working :=
        if options.contains 's' then working.ending 2 else working.complain 2 fault
      let complained := faults.foldl complain { finished with err := ByteArray.empty }
      if finished.code = 0 && options.contains 'q' then (complained.ending 0).result
      else complained.result

def classMembers : String → Option (List Char)
  | "upper" => some ((List.range 26).map fun n => Char.ofNat (n + 'A'.toNat))
  | "lower" => some ((List.range 26).map fun n => Char.ofNat (n + 'a'.toNat))
  | "digit" => some ((List.range 10).map fun n => Char.ofNat (n + '0'.toNat))
  | "space" => some ['\t', '\n', '\x0b', '\x0c', '\r', ' ']
  | "alpha" =>
      some ((List.range 26).map (fun n => Char.ofNat (n + 'A'.toNat))
        ++ (List.range 26).map fun n => Char.ofNat (n + 'a'.toNat))
  | "alnum" =>
      some ((List.range 10).map (fun n => Char.ofNat (n + '0'.toNat))
        ++ (List.range 26).map (fun n => Char.ofNat (n + 'A'.toNat))
        ++ (List.range 26).map fun n => Char.ofNat (n + 'a'.toNat))
  | "punct" =>
      some (((List.range 94).map fun n => Char.ofNat (n + 33)).filter fun c => !c.isAlphanum)
  | _ => none

def rangeMembers (low high : Char) : List Char :=
  (List.range (high.toNat + 1 - low.toNat)).map fun n => Char.ofNat (low.toNat + n)

/-- The characters that a set names, in order. -/
def setFrom : Nat → List Char → List Char
  | 0, _ => []
  | _, [] => []
  | steps + 1, '[' :: ':' :: rest =>
      let name := rest.takeWhile fun c => c ≠ ':'
      match classMembers (String.ofList name), rest.drop name.length with
      | some members, ':' :: ']' :: behind => members ++ setFrom steps behind
      | _, _ => '[' :: setFrom steps (':' :: rest)
  | steps + 1, '\\' :: 'n' :: rest => '\n' :: setFrom steps rest
  | steps + 1, '\\' :: 't' :: rest => '\t' :: setFrom steps rest
  | steps + 1, '\\' :: 'r' :: rest => '\r' :: setFrom steps rest
  | steps + 1, '\\' :: next :: rest => next :: setFrom steps rest
  | steps + 1, low :: '-' :: high :: rest => rangeMembers low high ++ setFrom steps rest
  | steps + 1, character :: rest => character :: setFrom steps rest

def setOf (source : String) : List Char := setFrom (source.length + 1) source.toList

/-- Writes repeated members of a set only once. -/
def squeezed (members : Char → Bool) : List Char → List Char
  | first :: second :: rest =>
      if first = second && members first then squeezed members (second :: rest)
      else first :: squeezed members (second :: rest)
  | other => other

def translated (origin target : List Char) (character : Char) : Char :=
  match origin.reverse.idxOf? character with
  | none => character
  | some fromBack =>
      let index := origin.length - 1 - fromBack
      (target[index]?.or target.getLast?).getD character

def tr (call : UtilityCall) : UtilityResult :=
  let (options, operands) :=
    UtilityCall.splitOptions (fun c => ['d', 's', 'c', 'C'].contains c) call.arguments
  let complement := options.contains 'c' || options.contains 'C'
  let working := (Working.start call).readingInput
  let characters := (Text.ofBytes call.input).toList
  let write (characters : List Char) : UtilityResult :=
    (working.write (String.ofList characters)).result
  let inSet (set : List Char) (c : Char) : Bool := set.contains c != complement
  match options.contains 'd', options.contains 's', operands with
  | true, false, [set] => write (characters.filter fun c => !inSet (setOf set) c)
  | true, true, [first, second] =>
      write (squeezed (setOf second).contains
        (characters.filter fun c => !inSet (setOf first) c))
  | false, true, [set] => write (squeezed (inSet (setOf set)) characters)
  | false, squeezing, [first, second] =>
      let origin := setOf first
      let target := setOf second
      let change (c : Char) : Char :=
        if complement then if origin.contains c then c else target.getLast?.getD c
        else translated origin target c
      let changed := characters.map change
      write (if squeezing then squeezed target.contains changed else changed)
  | _, _, [] => (working.complain 1 "tr: missing operand").result
  | _, _, first :: _ => (working.complain 1 s!"tr: missing operand after {call.quoted first}").result

def openComplaint (call : UtilityCall) (operand : String) (fault : FileFault) : String :=
  s!"{call.name}: cannot open '{operand}' for reading: {fault.reason}"

/-- How many lines or bytes are wanted: an option with a value, or digits alone. -/
def countOf (arguments : List String) : Option Nat × Option Nat × List String :=
  let (lines, rest) := takeValue 'n' arguments
  let (bytes, rest) := takeValue 'c' rest
  match lines, rest with
  | some lines, rest => (lines.toNat?, bytes.bind String.toNat?, rest)
  | none, word :: others =>
      match word.toList with
      | '-' :: digits =>
          if !digits.isEmpty && digits.all Char.isDigit then
            ((String.ofList digits).toNat?, none, others)
          else (none, bytes.bind String.toNat?, rest)
      | _ => (none, bytes.bind String.toNat?, rest)
  | none, [] => (none, bytes.bind String.toNat?, [])

/-- Lines with the line feeds that end them. -/
def fullLines (line : List UInt8) : List UInt8 → List (List UInt8)
  | [] => if line.isEmpty then [] else [line.reverse]
  | byte :: rest =>
      if byte = 10 then (byte :: line).reverse :: fullLines [] rest
      else fullLines (byte :: line) rest

def ofByteLists (pieces : List (List UInt8)) : ByteArray := ⟨pieces.flatten.toArray⟩

/-- The name of an input before its part, where several inputs are asked for. -/
def heading (operands : List String) (operand : String) (working : Working) : Working :=
  if operands.length ≤ 1 then working
  else
    let name := if operand = "-" then "standard input" else operand
    let gap := if working.out.isEmpty then "" else "\n"
    working.write (gap ++ "==> " ++ name ++ " <==\n")

def head (call : UtilityCall) : UtilityResult :=
  let (lines, bytes, operands) := countOf call.arguments
  (call.forEachInput operands (Working.start call) (openComplaint call)
    fun working operand input =>
      let working := heading operands operand working
      match bytes with
      | some most => working.writeBytes ⟨(input.toList.take most).toArray⟩
      | none => working.writeBytes (ofByteLists ((fullLines [] input.toList).take (lines.getD 10)))
    ).result

def tail (call : UtilityCall) : UtilityResult :=
  let (lines, bytes, operands) := countOf call.arguments
  (call.forEachInput operands (Working.start call) (openComplaint call)
    fun working operand input =>
      let working := heading operands operand working
      match bytes with
      | some most =>
          working.writeBytes ⟨(input.toList.drop (input.size - most)).toArray⟩
      | none =>
          let all := fullLines [] input.toList
          working.writeBytes (ofByteLists (all.drop (all.length - lines.getD 10)))).result

def wordsOf (text : String) : List String :=
  (String.ofList (text.toList.map fun c => if c.isWhitespace then ' ' else c)).splitOn " "
    |>.filter fun word => word ≠ ""

/-- Counts lines, words, characters and bytes. The columns are as wide as the size of all files. -/
def wc (call : UtilityCall) : UtilityResult :=
  let (options, operands) :=
    UtilityCall.splitOptions (fun c => ['l', 'w', 'c', 'm'].contains c) call.arguments
  let options := if options.isEmpty then ['l', 'w', 'c'] else options
  let counts (bytes : ByteArray) : List Nat :=
    let text := Text.ofBytes bytes
    [('l', bytes.toList.count 10), ('w', (wordsOf text).length), ('m', text.length),
      ('c', bytes.size)].filterMap fun entry =>
        if options.contains entry.1 then some entry.2 else none
  let contents := operands.filterMap fun operand =>
    (call.bytesOf (Working.start call) operand).toOption
  let total := contents.foldl (fun size found => size + found.1.size) 0
  let isStream := operands.isEmpty || contents.any Prod.snd
  let width :=
    if options.length = 1 && operands.length ≤ 1 then 1
    else max (toString total).length (if isStream then 7 else 1)
  let line (numbers : List Nat) (name : String) : String :=
    " ".intercalate (numbers.map fun count => alignedRight width (toString count)) ++ name
  let working := call.forEachInput operands (Working.start call) call.plainComplaint
    fun working operand bytes =>
      let name := if operand = "-" && operands.isEmpty then "" else " " ++ operand
      working.writeLine (line (counts bytes) name)
  if operands.length ≤ 1 then working.result
  else
    let sums := contents.map fun found => counts found.1
    let add (left right : List Nat) : List Nat := List.zipWith (fun a b => a + b) left right
    (working.writeLine (line (sums.foldl add (options.map fun _ => 0)) " total")).result

def leadingNumber (line : String) : Int :=
  let characters := line.toList.dropWhile Char.isWhitespace
  let value (digits : List Char) : Int :=
    ((String.ofList (digits.takeWhile Char.isDigit)).toNat?.getD 0 : Nat)
  match characters with
  | '-' :: rest => -(value rest)
  | other => value other

def withoutRepeats : List String → List String
  | first :: second :: rest =>
      if first = second then withoutRepeats (second :: rest)
      else first :: withoutRepeats (second :: rest)
  | other => other

def allLines (call : UtilityCall) (operands : List String)
    (complaint : String → FileFault → String) : Working × List String :=
  let operands := if operands.isEmpty then ["-"] else operands
  operands.foldl
    (fun (working, lines) operand =>
      match call.bytesOf working operand with
      | .ok (bytes, isInput) =>
          (if isInput then working.readingInput else working, lines ++ linesOf bytes)
      | .error fault => (working.complain 2 (complaint operand fault), lines))
    (Working.start call, [])

def sort (call : UtilityCall) : UtilityResult :=
  let (options, operands) :=
    UtilityCall.splitOptions (fun c => ['r', 'n', 'u'].contains c) call.arguments
  let (working, lines) := allLines call operands fun operand fault =>
    s!"sort: cannot read: {operand}: {fault.reason}"
  let before (left right : String) : Bool :=
    if options.contains 'n' then
      let first := leadingNumber left
      let second := leadingNumber right
      first < second || (first = second && left ≤ right)
    else left ≤ right
  let sorted := lines.mergeSort before
  let sorted := if options.contains 'r' then sorted.reverse else sorted
  let sorted := if options.contains 'u' then withoutRepeats sorted else sorted
  (working.write (joinLines sorted)).result

def baseName (path : String) : String :=
  let names := (path.splitOn "/").filter fun piece => piece ≠ ""
  match names.getLast? with
  | some name => name
  | none => if path = "" then "" else "/"

end TextUtility

end PipelineWaves.Sandbox
