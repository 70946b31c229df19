import Tether.Coordinator.Report
import Tether.Frame
import Tether.Settings.Basic
import Tether.Signal.Delivery
import Tether.Signal.Named

/-!
# The coordinator

A `Coordinator` keeps host objects and the entity world in step. It holds the registry, the
world, the binding table, the listeners, the mutation queue and the signals that are still to
be delivered, and it is the only place where structure changes.

Around it are the host objects in existence and a state `σ` that listeners share. It owns
neither (`Surroundings`), but every operation works on them, so they are part of the state that
operations take and give back. An operation that can fail gives back the state it leaves beside
its answer, on failure as well.

This module has the operations on components; the others are grouped by the phase of a frame
that they belong to.
-/

namespace Tether

/-- What lies around a coordinator. -/
structure Surroundings (ο σ : Type) where
  hosts : Hosts ο
  ambient : σ

/-- The state of a coordinator. -/
structure Coordinator (ο σ : Type) where
  settings : Settings
  registry : Registry := {}
  world : World := {}
  table : Table
  switchboard : Switchboard (Surroundings ο σ) := {}
  named : NamedSignals (Surroundings ο σ) := {}
  queue : MutationQueue := {}
  /-- Signals that were raised and not yet delivered, oldest first. -/
  outbox : Array Signal := #[]
  frame : Frame := {}
  /-- Incidents since the last look, if anyone listens. -/
  incidents : Option (Array Incident) := none
  journal : Journal := {}
  surroundings : Surroundings ο σ

namespace Coordinator

variable {ο σ : Type} [HostObject ο]

/-- A coordinator with a table of its own; the bindings of the settings are left aside. -/
def withTable (table : Table) (settings : Settings) (surroundings : Surroundings ο σ)
    (journal : Journal) : Coordinator ο σ :=
  { settings, table, surroundings, journal }

/-- A coordinator with the bindings of its settings. -/
def ofSettings (settings : Settings) (resolvers : Resolvers)
    (surroundings : Surroundings ο σ) (journal : Journal) : Except Error (Coordinator ο σ) :=
  match Table.ofSettings settings.bindings resolvers journal with
  | (.ok table, journal) => .ok (withTable table settings surroundings journal)
  | (.error error, _) => .error error

/-- The host objects in existence. -/
def hosts (c : Coordinator ο σ) : Hosts ο := c.surroundings.hosts

/-- Put other host objects into existence. -/
def setHosts (c : Coordinator ο σ) (hosts : Hosts ο) : Coordinator ο σ :=
  { c with surroundings := { c.surroundings with hosts } }

/-- Write a notice into the journal. -/
def note (c : Coordinator ο σ) (n : Notice) : Coordinator ο σ :=
  { c with journal := c.journal.note n }

/-- Start to listen for incidents, with none so far. -/
def listenForIncidents (c : Coordinator ο σ) : Coordinator ο σ :=
  { c with incidents := some #[] }

/-- Send an incident to whoever listens. -/
def report (c : Coordinator ο σ) (i : Incident) : Coordinator ο σ :=
  { c with incidents := c.incidents.map fun is => is.push i }

/-- Take the incidents since the last look. -/
def takeIncidents (c : Coordinator ο σ) : List Incident × Coordinator ο σ :=
  ((c.incidents.getD #[]).toList, { c with incidents := c.incidents.map fun _ => #[] })

/-- Raise a lifecycle signal, to be delivered at dispatch. -/
def announce (c : Coordinator ο σ) (s : Signal) : Coordinator ο σ :=
  { c with outbox := c.outbox.push s }

/-! ## Components -/

/-- The number of a component name. -/
def componentId? (c : Coordinator ο σ) (name : String) : Option ComponentId :=
  c.table.components.find? name

/-- Make a component name known that no binding feeds. -/
def registerComponent (c : Coordinator ο σ) (name : String) :
    ComponentId × Coordinator ο σ :=
  let (id, table) := c.table.registerComponent name
  (id, { c with table })

/-- A component of a bound entity. -/
def component? (c : Coordinator ο σ) (h : Handle) (id : ComponentId) : Option Value :=
  if c.registry.isBound h then c.world.value? h id else none

/-- Change the value of a component of a bound entity. The answer is whether there was one to
change. -/
def writeComponent (c : Coordinator ο σ) (h : Handle) (id : ComponentId) (value : Value) :
    Bool × Coordinator ο σ :=
  if (c.component? h id).isSome then
    (true, { c with world := c.world.modify h fun r => r.write id value })
  else (false, c)

/-- Change the value of a component in the world, whatever the registry says. The answer is
whether there was one to change. -/
def writeWorld (c : Coordinator ο σ) (h : Handle) (id : ComponentId) (value : Value) :
    Bool × Coordinator ο σ :=
  if (c.world.value? h id).isSome then
    (true, { c with world := c.world.modify h fun r => r.write id value })
  else (false, c)

/-- Add a component to a bound entity, or overwrite it. The answer is whether it is new; only
then is it announced. -/
def addComponent (c : Coordinator ο σ) (h : Handle) (id : ComponentId) (value : Value) :
    Except Error Bool × Coordinator ο σ :=
  match c.registry.bound h with
  | .error error => (.error error, c)
  | .ok _ =>
    match c.world.row? h with
    | none => (.error (.notBound (.handle h)), c)
    | some row =>
      let c := { c with world := c.world.modify h fun r => r.insert id value }
      if row.contains id then (.ok false, c)
      else (.ok true, c.announce (.componentAdded h id value))

/-- Take a component away from a bound entity. The answer is the value that it had, if it was
there; only then is it announced. -/
def removeComponent (c : Coordinator ο σ) (h : Handle) (id : ComponentId) :
    Except Error (Option Value) × Coordinator ο σ :=
  match c.registry.bound h with
  | .error error => (.error error, c)
  | .ok _ =>
    match c.world.value? h id with
    | none => (.ok none, c)
    | some value =>
      (.ok (some value),
        { c with world := c.world.modify h fun r => r.erase id }.announce
          (.componentRemoved h id value))

/-! ## The mutation queue -/

/-- Submit a mutation. The answer is its sequence number. -/
def enqueue (c : Coordinator ο σ) (mutation : Mutation) : Nat × Coordinator ο σ :=
  let (sequence, queue) := c.queue.enqueue mutation
  (sequence, { c with queue })

end Coordinator

end Tether
