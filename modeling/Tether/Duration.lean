import Tether.Number.Binary64

/-!
# Lengths of time

A `Duration` counts nanoseconds and stays below two to the 64 seconds, so a sum may have no
duration (`Duration.add?`). `ClockOverflow` is what an operation that would need such a sum
ends with.
-/

namespace Tether

/-- Nanoseconds in a second. -/
def nanosPerSecond : Nat := 1000000000

/-- The least number of nanoseconds that is too long for a duration. -/
def Duration.limit : Nat := 2 ^ 64 * nanosPerSecond

/-- A length of time in nanoseconds. -/
structure Duration where
  nanos : Nat
  bounded : nanos < Duration.limit
  deriving DecidableEq

/-- A clock or a schedule would pass the longest duration. -/
structure ClockOverflow where
  deriving DecidableEq, Repr, Inhabited

namespace Duration

/-- The duration of so many nanoseconds, if it is not too long. -/
def ofNanos? (n : Nat) : Option Duration :=
  if h : n < limit then some ⟨n, h⟩ else none

/-- No time. -/
def zero : Duration := ⟨0, by decide⟩

instance : Inhabited Duration := ⟨zero⟩

/-- The sum of two durations, if it is not too long. -/
def add? (a b : Duration) : Option Duration := ofNanos? (a.nanos + b.nanos)

/-- Order by length. -/
def le (a b : Duration) : Bool := a.nanos ≤ b.nanos

/-- The sum of a list of durations, if it is not too long. Sums of durations only grow, so
this is also whether every sum on the way is short enough. -/
def sum? (times : List Duration) : Option Duration :=
  ofNanos? (times.foldl (fun total time => total + time.nanos) 0)

/-- A share of a duration, rounded down; no share at all for zero parts. -/
def divide (a : Duration) (parts : Nat) : Duration :=
  ⟨a.nanos / parts, Nat.lt_of_le_of_lt (Nat.div_le_self _ _) a.bounded⟩

/-- Whole seconds. -/
def seconds (a : Duration) : Nat := a.nanos / nanosPerSecond

/-- Nanoseconds beyond the whole seconds. -/
def subsecond (a : Duration) : Nat := a.nanos % nanosPerSecond

/-- The duration in seconds as a number : seconds and fraction are rounded apart and then
added. -/
def toSeconds (a : Duration) : Binary64 :=
  Binary64.ofNat a.seconds + Binary64.ofNat a.subsecond / Binary64.ofNat nanosPerSecond

theorem add?_eq_some {a b c : Duration} (h : a.add? b = some c) :
    c.nanos = a.nanos + b.nanos := by
  unfold add? ofNanos? at h
  split at h
  · cases h; rfl
  · cases h

theorem add?_eq_none {a b : Duration} : a.add? b = none ↔ limit ≤ a.nanos + b.nanos := by
  unfold add? ofNanos?
  split <;> simp_all

end Duration

end Tether
