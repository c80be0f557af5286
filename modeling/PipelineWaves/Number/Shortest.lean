import PipelineWaves.Number.Binary64

/-!
# Shortest decimal digits

The decimal text of a finite number is made of the fewest digits that read back
to the same number; of several such decimals the nearest one is taken. A decimal
reads back when it lies in the interval of reals that round to the number, ends
included for an even significand. `inNotation` writes small and large exponents
with a power of ten, `positional` writes every digit place.
-/

set_option autoImplicit false

namespace PipelineWaves

/-- Digits read as one natural number, times a power of ten. -/
structure DecimalDigits where
  digits : Nat
  power : Int
deriving DecidableEq, Repr

namespace Binary64

structure RoundingInterval where
  lower : Nat
  value : Nat
  upper : Nat
  denominator : Nat
  closed : Bool

/-- All parts are taken four times as large, so that a quarter of a unit is whole. -/
def roundingInterval (significand : Nat) (exponent : Int) : RoundingInterval :=
  let unit := if 0 ≤ exponent then Nat.pow 2 exponent.toNat else 1
  let denominator := if 0 ≤ exponent then 4 else 4 * Nat.pow 2 (-exponent).toNat
  let narrow := significand = significandLimit / 2 && smallestExponent < exponent
  { lower := (4 * significand - if narrow then 1 else 2) * unit
    value := 4 * significand * unit
    upper := (4 * significand + 2) * unit
    denominator
    closed := significand % 2 = 0 }

namespace RoundingInterval

def holds (interval : RoundingInterval) (digits : Nat) (power : Int) : Bool :=
  let up := if 0 ≤ power then Nat.pow 10 power.toNat else 1
  let down := if 0 ≤ power then 1 else Nat.pow 10 (-power).toNat
  let candidate := digits * up * interval.denominator
  if interval.closed then
    interval.lower * down ≤ candidate && candidate ≤ interval.upper * down
  else interval.lower * down < candidate && candidate < interval.upper * down

def floor (interval : RoundingInterval) (power : Int) : Nat :=
  let up := if 0 ≤ power then Nat.pow 10 power.toNat else 1
  let down := if 0 ≤ power then 1 else Nat.pow 10 (-power).toNat
  interval.value * down / (interval.denominator * up)

/-- Whether the next multiple is nearer than the one below; a tie goes to the even one. -/
def nextIsNearer (interval : RoundingInterval) (digits : Nat) (power : Int) : Bool :=
  let up := if 0 ≤ power then Nat.pow 10 power.toNat else 1
  let down := if 0 ≤ power then 1 else Nat.pow 10 (-power).toNat
  let twice := 2 * interval.value * down
  let middle := (2 * digits + 1) * up * interval.denominator
  middle < twice || (middle = twice && digits % 2 = 1)

def onGrid (interval : RoundingInterval) (power : Int) : Option DecimalDigits :=
  let low := interval.floor power
  let lowHolds := low ≠ 0 && interval.holds low power
  let highHolds := interval.holds (low + 1) power
  if lowHolds && highHolds then
    some ⟨if interval.nextIsNearer low power then low + 1 else low, power⟩
  else if lowHolds then some ⟨low, power⟩
  else if highHolds then some ⟨low + 1, power⟩
  else none

/-- The largest power of ten that is not above the number; its search starts at `power`. -/
def leadingPower (interval : RoundingInterval) : Nat → Int → Int
  | 0, power => power
  | fuel + 1, power =>
      if interval.floor power = 0 then leadingPower interval fuel (power - 1) else power

/-- Tries ever finer grids, from the power of the first digit downwards. -/
def search (interval : RoundingInterval) : Nat → Int → DecimalDigits
  | 0, power => ⟨interval.floor power, power⟩
  | fuel + 1, power =>
      match interval.onGrid power with
      | some found => found
      | none => search interval fuel (power - 1)

end RoundingInterval

def withoutTrailingZeros : Nat → DecimalDigits → DecimalDigits
  | 0, decimal => decimal
  | fuel + 1, decimal =>
      if decimal.digits ≠ 0 && decimal.digits % 10 = 0 then
        withoutTrailingZeros fuel ⟨decimal.digits / 10, decimal.power + 1⟩
      else decimal

def shortestDigits (significand : Nat) (exponent : Int) : DecimalDigits :=
  if significand = 0 then ⟨0, 0⟩
  else
    let interval := roundingInterval significand exponent
    let bits : Int := (significand.log2 : Int) + exponent
    let start : Int := bits * 30103 / 100000 + 2
    let leading := interval.leadingPower 8 start
    withoutTrailingZeros 20 (interval.search 18 leading)

def decimalText (number : Nat) : String :=
  String.ofList (Nat.toDigits 10 number)

def signText (negative : Bool) : String := if negative then "-" else ""

def zeros (count : Nat) : String := String.ofList (List.replicate count '0')

def placesText (decimal : DecimalDigits) : String :=
  let digits := decimalText decimal.digits
  if 0 ≤ decimal.power then digits ++ zeros decimal.power.toNat ++ ".0"
  else
    let behind := (-decimal.power).toNat
    if behind < digits.length then
      String.ofList (digits.toList.take (digits.length - behind)) ++ "."
        ++ String.ofList (digits.toList.drop (digits.length - behind))
    else "0." ++ zeros (behind - digits.length) ++ digits

def scientificText (decimal : DecimalDigits) : String :=
  let digits := (decimalText decimal.digits).toList
  let exponent : Int := decimal.power + digits.length - 1
  let fraction := digits.drop 1
  String.ofList (digits.take 1)
    ++ (if fraction.isEmpty then "" else "." ++ String.ofList fraction)
    ++ (if exponent < 0 then "e-" else "e+")
    ++ decimalText exponent.natAbs

/-- Positional between ten to the power of minus five and of fifteen, else scientific. -/
def inNotation : Binary64 → String
  | .finite negative significand exponent =>
      let decimal := shortestDigits significand exponent
      let leading : Int := decimal.power + (decimalText decimal.digits).length - 1
      signText negative
        ++ if -5 ≤ leading && leading ≤ 15 then placesText decimal else scientificText decimal
  | .infinite negative => signText negative ++ "inf"
  | .notANumber => "NaN"

def positional : Binary64 → String
  | .finite negative significand exponent =>
      signText negative ++ placesText (shortestDigits significand exponent)
  | .infinite negative => signText negative ++ "inf"
  | .notANumber => "NaN"

end Binary64

end PipelineWaves
