import Tether.Binding.Materialize
import Tether.Coordinator.Basic

/-!
# Binding and tearing down

`Coordinator.attach` issues a handle for a host object, fills its row and announces the entity
with its components, and `Coordinator.bind` is that for an object that may be gone at the end
of it; `Coordinator.unbind` announces the end of an entity, with the components that it had,
and gives its handle back. `Coordinator.reap` tears down every entity whose host object is
gone.
-/

namespace Tether.Coordinator

variable {ο σ : Type} [HostObject ο]

/-- Tear down a bound entity. -/
def unbind (c : Coordinator ο σ) (h : Handle) : Except Error Unit × Coordinator ο σ :=
  match c.registry.bound h with
  | .error error => (.error error, c)
  | .ok entry =>
    match c.registry.setState h .unbinding with
    | .error error => (.error error, c)
    | .ok registry =>
      let components := ((c.world.row? h).map Row.snapshot).getD []
      let c := { c with registry }.announce (.entityDestroying h entry.host.id components)
      let c := { c with world := c.world.despawn h }
      match c.registry.unbind h with
      | .error error => (.error error, c)
      | .ok (_, registry) => (.ok (), { c with registry }.note (.unbound entry.host.id h))

/-- Tear down the entity that a host object is bound to. -/
def unbindHost (c : Coordinator ο σ) (id : HostId) : Except Error Unit × Coordinator ο σ :=
  match c.registry.lookup? id with
  | none => (.error (.notBound (.host id)), c)
  | some h => c.unbind h

/-- Tell of a capability that could not be read at binding. -/
def reportMaterialization (c : Coordinator ο σ) (failure : Error) : Coordinator ο σ :=
  (c.note (.materializationFailed failure)).report (.materialization failure)

/-- Announce a component of a new entity with the value that it has. -/
def announceComponent (h : Handle) (c : Coordinator ο σ) (id : ComponentId) :
    Coordinator ο σ :=
  match c.world.value? h id with
  | some value => c.announce (.componentAdded h id value)
  | none => c

/-- Fill the row of a new entity from its host object. The answer is what was filled and what
could not be read. -/
def fill (c : Coordinator ο σ) (h : Handle) (host : HostRef) (object : ο) :
    List ComponentId × List Error × Coordinator ο σ :=
  match c.world.row? h with
  | none => ([], [], c)
  | some row =>
    let m := c.table.materialize h object row
    (m.components, m.failures,
      { c with world := c.world.store m.row }.setHosts (c.hosts.putBack host m.object))

/-- Complete a binding : the entity becomes visible and is announced. -/
def complete (c : Coordinator ο σ) (registry : Registry) (h : Handle) (host : HostRef)
    (components : List ComponentId) (failures : List Error) : Coordinator ο σ :=
  let c := { c with registry := if failures.isEmpty then registry else registry.markDegraded h }
  let c := failures.foldl reportMaterialization c
  let c := c.announce (.entityCreated h host.id)
  (components.foldl (announceComponent h) c).note (.bound host.id h)

/-- Issue a handle for a host object, fill its row and announce the entity. A capability that
cannot be read leaves the entity bound without its component and flagged as degraded. -/
def attach (c : Coordinator ο σ) (host : HostRef) : Except Error Handle × Coordinator ο σ :=
  match c.hosts.find? host with
  | none => (.error (.hostDropped host.id), c)
  | some object =>
    match c.registry.bind host with
    | .error error => (.error error, c)
    | .ok (h, registry) =>
      let c := { c with registry, world := c.world.spawn h }.note (.allocated h host.id)
      let (components, failures, c) := c.fill h host object
      match c.registry.setState h .bound with
      | .error error => (.error error, c)
      | .ok registry => (.ok h, c.complete registry h host components failures)

/-- Bind a host object. If the object goes out of existence meanwhile, the binding is still
completed and then torn down. -/
def bind (c : Coordinator ο σ) (host : HostRef) : Except Error Handle × Coordinator ο σ :=
  match c.attach host with
  | (.error error, c) => (.error error, c)
  | (.ok h, c) =>
    if c.hosts.alive host then (.ok h, c)
    else
      match (c.note (.droppedWhileBinding host.id h)).unbind h with
      | (.error error, c) => (.error error, c)
      | (.ok (), c) => (.ok h, c)

/-- Tear down one entity whose host object is gone. The count is of those torn down so far. -/
def reapOne (state : Nat × Coordinator ο σ) (h : Handle) : Nat × Coordinator ο σ :=
  match state.2.unbind h with
  | (.ok (), c) => (state.1 + 1, c)
  | (.error error, c) => (state.1, c.note (.reapFailed h error))

/-- Tear down every entity whose host object is gone. The answer is how many there were. -/
def reap (c : Coordinator ο σ) : Nat × Coordinator ο σ :=
  let (count, c) := (c.registry.orphans c.hosts).foldl reapOne (0, c)
  (count, if 0 < count then c.note (.reaped count) else c)

end Tether.Coordinator
