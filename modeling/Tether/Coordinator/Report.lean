import Tether.Binding.Synchronize

/-!
# Reports

What the phases of a frame give back, and the incidents that the coordinator sends to whoever
listens : failures from which it has already recovered. A phase that schedules signals may run
over the clock, which is worse than an error : it stops where it is (`Outcome`).
-/

namespace Tether

/-- What an operation that works with the clock ends with : a clock that would run over, an
error, or its answer. -/
abbrev Outcome (α : Type) := Except ClockOverflow (Except Error α)

/-- What applying the mutation queue did. -/
structure FlushReport where
  applied : Nat := 0
  /-- Mutations whose target was already gone. -/
  stale : Nat := 0
  /-- Bindings torn down because their host object was gone. -/
  reaped : Nat := 0
  /-- Mutations that failed for another reason. -/
  rejected : List Error := []
  deriving DecidableEq, Inhabited

/-- What a reaction phase did. -/
structure DispatchReport where
  /-- Lifecycle signals delivered. -/
  delivered : Nat := 0
  /-- Named signals raised. -/
  named : Nat := 0
  failures : List ListenerFailure := []
  deriving DecidableEq, Inhabited

/-- What a whole frame did. -/
structure FrameReport where
  frame : Nat := 0
  flush : FlushReport := {}
  sync : SyncReport := {}
  dispatch : DispatchReport := {}
  deriving DecidableEq, Inhabited

/-- A failure from which the coordinator has recovered. -/
inductive Incident
  /-- A capability could not be read at binding. -/
  | materialization (error : Error)
  /-- A capability could not be read or written during synchronization. -/
  | synchronization (error : Error)
  /-- A listener failed. -/
  | listener (failure : ListenerFailure)
  /-- A queued mutation came too late for its target. -/
  | staleMutation (sequence : Nat) (error : Error)
  /-- A queued mutation was refused. -/
  | rejected (sequence : Nat) (error : Error)
  deriving DecidableEq, Inhabited

/-- Name of what an incident is about. -/
def Incident.name : Incident → String
  | .materialization _ => "Materialization"
  | .synchronization _ => "Synchronization"
  | .listener _ => "Listener"
  | .staleMutation .. => "StaleMutation"
  | .rejected .. => "Rejected"

end Tether
