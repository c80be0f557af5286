import PipelineWaves.Json.Source

/-!
# Scheduling strategies

How many steps of a wave may run at once. Every wave has room for at least one.
-/

set_option autoImplicit false

namespace PipelineWaves

inductive SchedulingStrategy where
  | sequential
  | parallel
  | limited (most : Nat)
deriving DecidableEq, Repr

namespace SchedulingStrategy

/-- The number of steps that may run at once in a wave of the given size. -/
def permits (waveSize : Nat) : SchedulingStrategy → Nat
  | sequential => 1
  | parallel => max waveSize 1
  | limited most => max (min (max most 1) waveSize) 1

def text : SchedulingStrategy → String
  | sequential => "sequential"
  | parallel => "parallel"
  | limited most => s!"limited({most})"

def writtenNames : List String := ["Sequential", "Parallel", "LimitedParallel"]

def toJson : SchedulingStrategy → Json
  | sequential => .text "Sequential"
  | parallel => .text "Parallel"
  | limited most => .object [("LimitedParallel", .natural most)]

def highestLimit : Int := Int.pow 2 64 - 1

def read (document : JsonDocument) : Except ReadError SchedulingStrategy := do
  match ← document.variantForm writtenNames with
  | .bare "Sequential" => .ok .sequential
  | .bare "Parallel" => .ok .parallel
  | .bare _ => .error (.of (.wrongType .unitVariant "newtype variant"))
  | .holding "LimitedParallel" value finish =>
      let most ← value.readInteger 0 highestLimit "usize"
      finish
      .ok (.limited most.toNat)
  | .holding name value finish =>
      match value with
      | .null =>
          finish
          .ok (if name = "Sequential" then .sequential else .parallel)
      | other => other.mismatch "unit"

end SchedulingStrategy

end PipelineWaves
