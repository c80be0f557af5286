import PipelineWaves.Text.Blank
import PipelineWaves.Time.Duration

/-!
# Instants

Points in time in the calendar of RFC 3339, with nanoseconds. A leap second is
the second before it with more than a whole second of nanoseconds. `read` takes
the form with a date, one separating character, a time and an offset; single
digits and blanks around the parts are accepted. `text` writes the instant in
UTC with the fewest groups of three fraction digits.
-/

set_option autoImplicit false

namespace PipelineWaves

/-- Seconds since the start of the year 1970 in UTC. -/
structure Instant where
  seconds : Int
  nanoseconds : Nat
deriving DecidableEq, Repr

namespace Instant

def secondsPerDay : Int := 86400

def isLeapYear (year : Int) : Bool :=
  year % 4 = 0 && (year % 100 ≠ 0 || year % 400 = 0)

def daysInMonth (year : Int) (month : Nat) : Nat :=
  if month = 2 then (if isLeapYear year then 29 else 28)
  else if month = 4 || month = 6 || month = 9 || month = 11 then 30
  else 31

/-- Days from the start of 1970; years are counted from March, so that leap days end one. -/
def daysFromDate (year : Int) (month day : Nat) : Int :=
  let shifted := if month ≤ 2 then year - 1 else year
  let era := shifted / 400
  let yearOfEra := shifted % 400
  let monthFromMarch : Int := if month ≤ 2 then month + 9 else month - 3
  let dayOfYear := (153 * monthFromMarch + 2) / 5 + day - 1
  let dayOfEra := yearOfEra * 365 + yearOfEra / 4 - yearOfEra / 100 + dayOfYear
  era * 146097 + dayOfEra - 719468

/-- Year, month and day of a day counted from the start of 1970. -/
def dateFromDays (days : Int) : Int × Nat × Nat :=
  let shifted := days + 719468
  let era := shifted / 146097
  let dayOfEra := shifted % 146097
  let yearOfEra :=
    (dayOfEra - dayOfEra / 1460 + dayOfEra / 36524 - dayOfEra / 146096) / 365
  let dayOfYear := dayOfEra - (365 * yearOfEra + yearOfEra / 4 - yearOfEra / 100)
  let monthFromMarch := (5 * dayOfYear + 2) / 153
  let day := dayOfYear - (153 * monthFromMarch + 2) / 5 + 1
  let month := if monthFromMarch < 10 then monthFromMarch + 3 else monthFromMarch - 9
  let year := yearOfEra + era * 400
  (if month ≤ 2 then year + 1 else year, month.toNat, day.toNat)

def padded (width : Nat) (value : Nat) : String :=
  let digits := Nat.toDigits 10 value
  String.ofList (List.replicate (width - digits.length) '0' ++ digits)

def yearText (year : Int) : String :=
  if 0 ≤ year ∧ year ≤ 9999 then padded 4 year.toNat
  else (if year < 0 then "-" else "+") ++ padded 4 year.natAbs

def fractionText (nanoseconds : Nat) : String :=
  if nanoseconds = 0 then ""
  else if nanoseconds % 1000000 = 0 then "." ++ padded 3 (nanoseconds / 1000000)
  else if nanoseconds % 1000 = 0 then "." ++ padded 6 (nanoseconds / 1000)
  else "." ++ padded 9 nanoseconds

def text (instant : Instant) : String :=
  let (year, month, day) := dateFromDays (instant.seconds / secondsPerDay)
  let time := (instant.seconds % secondsPerDay).toNat
  let leap := Duration.second ≤ instant.nanoseconds
  let second := time % 60 + if leap then 1 else 0
  let fraction := if leap then instant.nanoseconds - Duration.second else instant.nanoseconds
  yearText year ++ "-" ++ padded 2 month ++ "-" ++ padded 2 day ++ "T"
    ++ padded 2 (time / 3600) ++ ":" ++ padded 2 (time % 3600 / 60) ++ ":" ++ padded 2 second
    ++ fractionText fraction ++ "Z"

def skipBlank (characters : List Char) : List Char := characters.dropWhile Text.isBlank

def number? (width : Nat) (characters : List Char) : Option (Nat × List Char) :=
  let digits := (characters.take width).takeWhile Char.isDigit
  if digits.isEmpty then none
  else
    some (digits.foldl (fun value digit => value * 10 + (digit.toNat - '0'.toNat)) 0,
      characters.drop digits.length)

def literal? (wanted : Char) (characters : List Char) : Option (List Char) :=
  match skipBlank characters with
  | first :: rest => if first = wanted then some rest else none
  | [] => none

def year? (characters : List Char) : Option (Int × List Char) :=
  match skipBlank characters with
  | '-' :: rest => (number? rest.length rest).map fun found => (-(found.1 : Int), found.2)
  | '+' :: rest => (number? rest.length rest).map fun found => ((found.1 : Int), found.2)
  | rest => (number? 4 rest).map fun found => ((found.1 : Int), found.2)

/-- Digits after a point count as nanoseconds; those after the ninth are dropped. -/
def fraction? (characters : List Char) : Option (Nat × List Char) :=
  match characters with
  | '.' :: rest =>
      let digits := rest.takeWhile Char.isDigit
      if digits.isEmpty then none
      else
        let kept := digits.take 9
        let value := kept.foldl (fun value digit => value * 10 + (digit.toNat - '0'.toNat)) 0
        some (value * Nat.pow 10 (9 - kept.length), rest.drop digits.length)
  | rest => some (0, rest)

def isSameLetter (left right : Char) : Bool := left.toUpper = right

/-- The offset from UTC in seconds: a letter, a name, or a sign with hours and minutes. -/
def offset? (characters : List Char) : Option (Int × List Char) :=
  match skipBlank characters with
  | first :: second :: third :: rest =>
      if isSameLetter first 'U' && isSameLetter second 'T' && isSameLetter third 'C' then
        some (0, rest)
      else signed first (second :: third :: rest)
  | first :: rest => signed first rest
  | [] => none
where
  signed (first : Char) (rest : List Char) : Option (Int × List Char) :=
    if first = 'Z' || first = 'z' then some (0, rest)
    else if first = '+' then hoursAndMinutes 1 rest
    else if first = '-' || first = '−' then hoursAndMinutes (-1) rest
    else none
  hoursAndMinutes (sign : Int) (rest : List Char) : Option (Int × List Char) :=
    match rest with
    | tens :: ones :: rest =>
        if tens.isDigit && ones.isDigit then
          match rest.dropWhile fun character => character = ':' || Text.isBlank character with
          | minuteTens :: minuteOnes :: rest =>
              if minuteTens.isDigit && minuteOnes.isDigit && minuteTens.toNat < '6'.toNat then
                let value (tens ones : Char) : Int :=
                  (tens.toNat - '0'.toNat) * 10 + (ones.toNat - '0'.toNat : Nat)
                some (sign * (value tens ones * 3600 + value minuteTens minuteOnes * 60), rest)
              else none
          | _ => none
        else none
    | _ => none

def largestYear : Int := 262142

def ofParts? (year : Int) (month day hour minute second nanoseconds : Nat) (offset : Int) :
    Option Instant :=
  if 1 ≤ month ∧ month ≤ 12 ∧ 1 ≤ day ∧ day ≤ daysInMonth year month ∧ hour ≤ 23
      ∧ minute ≤ 59 ∧ second ≤ 60 ∧ -largestYear - 1 ≤ year ∧ year ≤ largestYear
      ∧ -secondsPerDay < offset ∧ offset < secondsPerDay then
    let leap := second = 60
    let second := if leap then 59 else second
    let seconds := daysFromDate year month day * secondsPerDay
      + (hour * 3600 + minute * 60 + second : Nat) - offset
    some ⟨seconds, if leap then nanoseconds + Duration.second else nanoseconds⟩
  else none

def read (source : String) : Option Instant := do
  let (year, rest) ← year? source.toList
  let rest ← literal? '-' rest
  let (month, rest) ← number? 2 (skipBlank rest)
  let rest ← literal? '-' rest
  let (day, rest) ← number? 2 (skipBlank rest)
  let rest ←
    match rest with
    | separator :: rest =>
        if separator = 't' || separator = 'T' || separator = ' ' then some rest else none
    | [] => none
  let (hour, rest) ← number? 2 (skipBlank rest)
  let rest ← literal? ':' rest
  let (minute, rest) ← number? 2 (skipBlank rest)
  let rest ← literal? ':' rest
  let (second, rest) ← number? 2 (skipBlank rest)
  let (nanoseconds, rest) ← fraction? rest
  let (offset, rest) ← offset? rest
  if (skipBlank rest).isEmpty then
    ofParts? year month day hour minute second nanoseconds offset
  else none

def secondOfDay (instant : Instant) : Int := instant.seconds % secondsPerDay

def isLeap (instant : Instant) : Bool := Duration.second ≤ instant.nanoseconds

/-- The time from one instant to a later one. A leap second counts when the day goes on after it. -/
def durationTo (start finish : Instant) : Option Duration :=
  let second : Int := Duration.second
  let leap : Int :=
    if start.secondOfDay < finish.secondOfDay ∧ start.isLeap then 1
    else if finish.secondOfDay < start.secondOfDay ∧ finish.isLeap then -1
    else 0
  let total := (finish.seconds - start.seconds + leap) * second
    + (finish.nanoseconds - start.nanoseconds)
  if total < 0 then none
  else some ⟨(total / second).toNat, (total % second).toNat⟩

end Instant

end PipelineWaves
