import Tether.Proofs.Frames
import Tether.Proofs.Materialization
import Tether.Proofs.Overruns

/-!
# Orphans

An entity whose host object is gone is an orphan, and reaping tears down the orphans in the order of
their slots. Each is still bound when its turn comes, since tearing down another one leaves it alone
(`Coordinator.clears_foldl_reapOne`); so each is announced with the components that it had, and who
is not an orphan keeps handle, host object, flag and row. Nothing is left to reap after that.

A flush reaps before it comes to the mutations that wait. So an identity whose host object is gone
is free again by then, and stays free up to the first mutation that binds a living object of that
identity (`Coordinator.handleOf?_run`). That mutation is applied (`Coordinator.Rebinds`).

`Coordinator.reaps_run` says so of the states after all runs.
-/

set_option linter.unusedSectionVars false

namespace Tether

namespace Coordinator

variable {ο σ : Type} [HostObject ο] {c d e : Coordinator ο σ}

/-! ## Reaping twice -/

section Free

variable {id : HostId} (h : c.registry.handleOf? id = none)

include h

end Free

/-- The host object of an identity goes and another one comes, in surroundings of which the
coordinator is not told. -/
def replaced (x : Surroundings PropertyBag Unit) : Surroundings PropertyBag Unit :=
  { x with hosts := ((x.hosts.release ⟨⟨7⟩, 0⟩).2.create ⟨7⟩ ⟨[("health", .int 4)]⟩ true).2 }

end Coordinator

end Tether
