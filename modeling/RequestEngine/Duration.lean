/-!
Contract: measured stretches of time.

Owns:
- durations in whole nanoseconds, with an upper bound;
- construction and addition, which refuse to pass the bound;
- the duration in milliseconds as a floating-point number.

Does not own: clocks.
-/

namespace RequestEngine

def nanosecondsPerSecond : Nat := 1000000000

/-- Durations stay below this many nanoseconds: their seconds fit into one word
of 64 bits. -/
def durationBound : Nat := 18446744073709551616 * nanosecondsPerSecond

/-- A stretch of time. -/
structure Duration where
  nanoseconds : Nat
  nanoseconds_lt : nanoseconds < durationBound := by decide
deriving DecidableEq, Repr

/-- A duration would pass the bound. -/
inductive DurationOverflow where
  | construction
  | addition
deriving DecidableEq, Repr

def DurationOverflow.message : DurationOverflow → String
  | .construction => "overflow in Duration::new"
  | .addition => "overflow when adding durations"

namespace Duration

def zero : Duration where
  nanoseconds := 0

/-- A duration of so many nanoseconds, unless it would pass the bound. -/
def ofNanoseconds? (nanoseconds : Nat) : Option Duration :=
  if bounded : nanoseconds < durationBound then some ⟨nanoseconds, bounded⟩ else none

/-- Seconds and nanoseconds together; surplus nanoseconds count as seconds. -/
def ofParts (seconds nanoseconds : Nat) : Except DurationOverflow Duration :=
  match ofNanoseconds? (seconds * nanosecondsPerSecond + nanoseconds) with
  | some duration => .ok duration
  | none => .error .construction

def add (left right : Duration) : Except DurationOverflow Duration :=
  match ofNanoseconds? (left.nanoseconds + right.nanoseconds) with
  | some duration => .ok duration
  | none => .error .addition

/-- A duration in milliseconds: seconds and the fraction of a second are added
first, and the sum is scaled. -/
def milliseconds (duration : Duration) : Float :=
  let seconds := (UInt64.ofNat (duration.nanoseconds / nanosecondsPerSecond)).toFloat
  let fraction := (UInt64.ofNat (duration.nanoseconds % nanosecondsPerSecond)).toFloat
  (seconds + fraction / 1000000000.0) * 1000.0

/-- A sum that stays below the bound adds the nanoseconds. -/
theorem nanoseconds_of_add
    {left right sum : Duration}
    (succeeds : left.add right = .ok sum) :
    sum.nanoseconds = left.nanoseconds + right.nanoseconds := by
  unfold add ofNanoseconds? at succeeds
  split at succeeds
  case h_1 _ duration found =>
    split at found
    · cases found
      cases succeeds
      rfl
    · cases found
  case h_2 => cases succeeds

end Duration

end RequestEngine
