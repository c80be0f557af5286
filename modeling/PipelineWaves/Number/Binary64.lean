/-!
# Binary64 numbers

Binary floating-point numbers of 64 bits as a significand and a power of two.
`rounded` takes an exact quotient of natural numbers to the nearest such number,
a half to the even significand; products and quotients are computed exactly
first and rounded once. Nothing here uses the machine's own floating point.
-/

set_option autoImplicit false

namespace PipelineWaves

/-- A finite number is its significand times two to the power of its exponent. -/
inductive Binary64 where
  | finite (negative : Bool) (significand : Nat) (exponent : Int)
  | infinite (negative : Bool)
  | notANumber
deriving DecidableEq, Repr

namespace Binary64

def smallestExponent : Int := -1074
def largestExponent : Int := 971
def significandLimit : Nat := Nat.pow 2 53

def zero (negative : Bool) : Binary64 := .finite negative 0 smallestExponent

/-- A quotient of natural numbers times a power of two. -/
structure Magnitude where
  numerator : Nat
  denominator : Nat

namespace Magnitude

def scaled (numerator denominator : Nat) (power : Int) : Magnitude :=
  if 0 ≤ power then ⟨numerator * Nat.pow 2 power.toNat, denominator⟩
  else ⟨numerator, denominator * Nat.pow 2 (-power).toNat⟩

def nearest (magnitude : Magnitude) : Nat :=
  let quotient := magnitude.numerator / magnitude.denominator
  let twice := 2 * (magnitude.numerator % magnitude.denominator)
  if twice < magnitude.denominator then quotient
  else if magnitude.denominator < twice then quotient + 1
  else quotient + quotient % 2

def below (magnitude : Magnitude) (bound : Nat) : Bool :=
  magnitude.numerator < bound * magnitude.denominator

end Magnitude

/-- The exponent at which a positive quotient has 53 significant bits, or the smallest one. -/
def exponentOf (numerator denominator : Nat) : Int :=
  let guess : Int := (numerator.log2 : Int) - (denominator.log2 : Int) - 53
  let exponent :=
    if (Magnitude.scaled numerator denominator (-guess)).below significandLimit then guess
    else guess + 1
  max exponent smallestExponent

/-- The number nearest to a quotient; numbers beyond the largest become infinite. -/
def rounded (negative : Bool) (numerator denominator : Nat) : Binary64 :=
  if numerator = 0 then zero negative
  else
    let exponent := exponentOf numerator denominator
    let significand := (Magnitude.scaled numerator denominator (-exponent)).nearest
    let carried := significand = significandLimit
    let significand := if carried then significandLimit / 2 else significand
    let exponent := if carried then exponent + 1 else exponent
    if largestExponent < exponent then .infinite negative
    else .finite negative significand exponent

def ofNat (number : Nat) : Binary64 := rounded false number 1

/-- The number nearest to a decimal: `digits` times ten to the power of `power`. -/
def ofDecimal (negative : Bool) (digits : Nat) (power : Int) : Binary64 :=
  if digits = 0 then zero negative
  else if 400 < power then .infinite negative
  else if 0 ≤ power then rounded negative (digits * Nat.pow 10 power.toNat) 1
  else if power + (Nat.toDigits 10 digits).length < -400 then zero negative
  else rounded negative digits (Nat.pow 10 (-power).toNat)

def isZero : Binary64 → Bool
  | .finite _ significand _ => significand = 0
  | _ => false

def isInfinite : Binary64 → Bool
  | .infinite _ => true
  | _ => false

def negate : Binary64 → Binary64
  | .finite negative significand exponent => .finite (!negative) significand exponent
  | .infinite negative => .infinite (!negative)
  | .notANumber => .notANumber

def signedAt (exponent : Int) (negative : Bool) (significand : Nat) (own : Int) : Int :=
  let magnitude : Int := significand * Int.pow 2 (own - exponent).toNat
  if negative then -magnitude else magnitude

def plus : Binary64 → Binary64 → Binary64
  | .finite leftNegative left leftExponent, .finite rightNegative right rightExponent =>
      let exponent := min leftExponent rightExponent
      let sum := signedAt exponent leftNegative left leftExponent
        + signedAt exponent rightNegative right rightExponent
      let exact := Magnitude.scaled sum.natAbs 1 exponent
      rounded (sum < 0) exact.numerator exact.denominator
  | _, _ => .notANumber

/-- The nearest multiple of one tenth, counted in tenths; a half goes to the even one. -/
def tenths : Binary64 → Nat
  | .finite _ significand exponent => (Magnitude.scaled (10 * significand) 1 exponent).nearest
  | _ => 0

def times : Binary64 → Binary64 → Binary64
  | .finite leftNegative left leftExponent, .finite rightNegative right rightExponent =>
      let exact := Magnitude.scaled (left * right) 1 (leftExponent + rightExponent)
      rounded (leftNegative != rightNegative) exact.numerator exact.denominator
  | .infinite leftNegative, .finite rightNegative _ _ => .infinite (leftNegative != rightNegative)
  | _, _ => .notANumber

def dividedBy : Binary64 → Binary64 → Binary64
  | .finite leftNegative left leftExponent, .finite rightNegative right rightExponent =>
      if right = 0 then .notANumber
      else
        let exact := Magnitude.scaled left right (leftExponent - rightExponent)
        rounded (leftNegative != rightNegative) exact.numerator exact.denominator
  | .infinite leftNegative, .finite rightNegative _ _ => .infinite (leftNegative != rightNegative)
  | _, _ => .notANumber

end Binary64

end PipelineWaves
