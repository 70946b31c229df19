import Tether.Binding.Table
import Tether.World.Row

/-!
# Materialization

A newly bound entity gets its components from its host object. The bindings are visited in
order; a capability that the object exposes is read if its component is still missing. A
capability that cannot be read is reported and skipped, and the entity stays bound without it.
-/

namespace Tether

variable {ο : Type} [HostObject ο]

/-- A row that is being filled, with the object that is read. -/
structure Materialized (ο : Type) where
  object : ο
  row : Row
  /-- Components added so far, in the order in which they were filled. -/
  components : List ComponentId := []
  /-- Capabilities that could not be read, in order of registration. -/
  failures : List Error := []

namespace Materialized

/-- Whether every capability could be read. -/
def isComplete (m : Materialized ο) : Bool := m.failures.isEmpty

/-- Visit one binding. -/
def visit (handle : Handle) (m : Materialized ο) (b : Binding) : Materialized ο :=
  if !HostObject.exposes m.object b.capability || m.row.contains b.component then m
  else
    match HostObject.read m.object b.capability with
    | (.ok value, object) =>
      { m with
        object
        row := m.row.insert b.component value
        components := m.components ++ [b.component] }
    | (.error source, object) =>
      { m with
        object
        failures := m.failures ++
          [.materialization handle b.capability b.componentName source] }

end Materialized

/-- Read every applicable capability into a component of the row. -/
def Table.materialize (t : Table) (handle : Handle) (object : ο) (row : Row) :
    Materialized ο :=
  t.bindings.foldl (Materialized.visit handle) { object, row }

end Tether
