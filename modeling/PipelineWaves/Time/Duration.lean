import PipelineWaves.Number.Shortest

/-!
# Durations

A length of time in whole seconds and nanoseconds, and its text: milliseconds
below a second, tenths of a second below a minute, then minutes and hours. The
tenths are those of the nearest binary64 number of seconds, a half going to the
even tenth.
-/

set_option autoImplicit false

namespace PipelineWaves

structure Duration where
  seconds : Nat
  nanoseconds : Nat
deriving DecidableEq, Repr

namespace Duration

def second : Nat := 1000000000

/-- Carries whole seconds out of the nanoseconds. -/
def of (seconds nanoseconds : Nat) : Duration :=
  ⟨seconds + nanoseconds / second, nanoseconds % second⟩

def zero : Duration := ⟨0, 0⟩

def inSeconds (duration : Duration) : Binary64 :=
  (Binary64.ofNat duration.seconds).plus
    ((Binary64.ofNat duration.nanoseconds).dividedBy (Binary64.ofNat second))

def text (duration : Duration) : String :=
  let seconds := duration.seconds
  if seconds < 1 then s!"{duration.nanoseconds / 1000000}ms"
  else if seconds < 60 then
    let tenths := duration.inSeconds.tenths
    s!"{tenths / 10}.{tenths % 10}s"
  else if seconds < 3600 then s!"{seconds / 60}m {seconds % 60}s"
  else s!"{seconds / 3600}h {seconds % 3600 / 60}m {seconds % 60}s"

end Duration

end PipelineWaves
