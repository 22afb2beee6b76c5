import Deskhand.Number.Notation

/-!
# Durations

Lengths of time in whole nanoseconds. The clock of a mission counts whole milliseconds, so a wait
takes its duration rounded up to the next of them.
-/

namespace Deskhand

/-- A length of time. -/
structure Duration where
  nanos : Nat
  deriving DecidableEq

namespace Duration

def zero : Duration := ⟨0⟩

def nanosPerSecond : Nat := 1000000000

def nanosPerMilli : Nat := 1000000

def ofSeconds (n : Nat) : Duration := ⟨n * nanosPerSecond⟩

def ofMillis (n : Nat) : Duration := ⟨n * nanosPerMilli⟩

/-- The whole milliseconds in a duration. -/
def wholeMillis (d : Duration) : Nat := d.nanos / nanosPerMilli

/-- The milliseconds that a wait of this duration takes. -/
def waitMillis (d : Duration) : Nat := (d.nanos + (nanosPerMilli - 1)) / nanosPerMilli

def isZero (d : Duration) : Bool := d.nanos == 0

def max (a b : Duration) : Duration := ⟨Nat.max a.nanos b.nanos⟩

def min (a b : Duration) : Duration := ⟨Nat.min a.nanos b.nanos⟩

/-- Whole seconds must fit 64 bits. -/
def secondsLimit : Nat := Word.count64

/-- The duration `n` times in a row, unless that is too long. -/
def times? (n : Nat) (d : Duration) : Option Duration :=
  let nanos := d.nanos * n
  if nanos < secondsLimit * nanosPerSecond then some ⟨nanos⟩ else none

/-- A real number of seconds, rounded to the nearest nanosecond with a half going to the even one.
Negative numbers and those that are no number count as zero; too large ones have no duration. -/
def ofReal? : Binary64 → Option Duration
  | .nan => some zero
  | .infinite negative => if negative then some zero else none
  | .finite x =>
    if x.negative then some zero
    else if secondsLimit * unitsPerOne ≤ x.units then none
    else some ⟨divRoundEven (x.units * nanosPerSecond) unitsPerOne⟩

end Duration

end Deskhand
