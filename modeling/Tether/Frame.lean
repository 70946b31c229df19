import Tether.Duration

/-!
# Frames

A `Frame` is one turn of the coordinator's clock. Its number counts the frames before it, its
time is the sum of all deltas so far, and it remembers whether the mutation queue was flushed
in it. The clock follows the deltas that callers supply.
-/

namespace Tether

/-- The three phases of a frame, in the order in which they run. -/
inductive Phase
  | structural
  | synchronization
  | reaction
  deriving DecidableEq, Repr, Inhabited

namespace Phase

/-- Place in the order of phases. -/
def rank : Phase → Nat
  | .structural => 0
  | .synchronization => 1
  | .reaction => 2

/-- Name of a phase. -/
def name : Phase → String
  | .structural => "structural"
  | .synchronization => "synchronization"
  | .reaction => "reaction"

end Phase

/-- One turn of the clock. -/
structure Frame where
  number : Nat := 0
  time : Duration := Duration.zero
  delta : Duration := Duration.zero
  phase : Phase := .structural
  flushed : Bool := false
  deriving DecidableEq, Inhabited

namespace Frame

/-- Move the clock on within the frame. -/
def advance (f : Frame) (delta : Duration) : Except ClockOverflow Frame :=
  match f.time.add? delta with
  | none => .error ⟨⟩
  | some time => .ok { f with time, delta }

/-- Enter a phase. -/
def enter (f : Frame) (phase : Phase) : Frame := { f with phase }

/-- Note that the mutation queue was flushed. -/
def markFlushed (f : Frame) : Frame := { f with flushed := true }

/-- The frame after this one. -/
def next (f : Frame) : Frame := { number := f.number + 1, time := f.time }

end Frame

/-- The nominal delta of sixty frames a second. -/
def sixtyPerSecond : Duration := ⟨16666666, by simp [Duration.limit, nanosPerSecond]⟩

end Tether
