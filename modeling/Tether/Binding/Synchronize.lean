import Tether.Binding.Table
import Tether.World.Row

/-!
# Synchronization of one entity

A pass moves values between a host object and the row of its entity, binding by binding. A
binding takes part with the flow that its direction and the direction of the pass allow. If
both sides agree, the agreement is noted as the new base. Otherwise the source of a one-way
binding, or the policy of a binding that flows both ways, gives the target value. Each side that
differs from the target is written if the flow allows it, and the base moves to the target only
if both sides have reached it.
-/

namespace Tether

/-- What a pass did. -/
structure SyncReport where
  /-- Entities visited. -/
  entities : Nat := 0
  /-- Values written to components. -/
  toEcs : Nat := 0
  /-- Values written to host objects. -/
  toHost : Nat := 0
  /-- Divergences that a policy had to settle. -/
  conflicts : Nat := 0
  failures : List Error := []
  deriving DecidableEq, Inhabited

namespace SyncReport

/-- Both reports in one, the failures of the first one first. -/
def merge (a b : SyncReport) : SyncReport :=
  { entities := a.entities + b.entities
    toEcs := a.toEcs + b.toEcs
    toHost := a.toHost + b.toHost
    conflicts := a.conflicts + b.conflicts
    failures := a.failures ++ b.failures }

/-- Whether nothing failed. -/
def isClean (r : SyncReport) : Bool := r.failures.isEmpty

theorem merge_assoc (a b c : SyncReport) : (a.merge b).merge c = a.merge (b.merge c) := by
  simp [merge, Nat.add_assoc]

theorem empty_merge (a : SyncReport) : merge {} a = a := by simp [merge]

theorem merge_empty (a : SyncReport) : a.merge {} = a := by simp [merge]

end SyncReport

variable {ο : Type} [HostObject ο]

/-- The state of a pass over one entity. -/
structure Pass (ο : Type) where
  object : ο
  row : Row
  report : SyncReport := {}
  journal : Journal := {}

namespace Pass

/-- Report a capability that could not be read or written. -/
def fail (p : Pass ο) (handle : Handle) (capability : Capability) (source : AccessError) :
    Pass ο :=
  { p with report := { p.report with
      failures := p.report.failures ++ [.synchronization handle capability source] } }

/-- Note a new base for a component. -/
def agree (p : Pass ο) (id : ComponentId) (base : Value) : Pass ο :=
  match p.row.cell? id with
  | some cell => { p with row := p.row.put id { cell with synced := base } }
  | none => p

/-- Bring the component to the target if the flow allows it. The answer is whether it is
there. -/
def pull (p : Pass ο) (flow : Direction) (id : ComponentId) (cell : Cell) (target : Value) :
    Bool × Pass ο :=
  if cell.value.agrees target then (true, p)
  else if flow.readsHost then
    (true, { p with
      row := p.row.put id { cell with value := target }
      report := { p.report with toEcs := p.report.toEcs + 1 } })
  else (false, p)

/-- Bring the host's capability to the target if the flow allows it. The answer is whether it
is there. -/
def send (p : Pass ο) (flow : Direction) (handle : Handle) (capability : Capability)
    (hostValue target : Value) : Bool × Pass ο :=
  if hostValue.agrees target then (true, p)
  else if flow.writesHost then
    match HostObject.write p.object capability target with
    | (.ok _, object) =>
      (true, { p with object, report := { p.report with toHost := p.report.toHost + 1 } })
    | (.error source, object) => (false, { p with object }.fail handle capability source)
  else (false, p)

/-- The value that both sides of a binding should hold. -/
def target (b : Binding) (hostValue : Value) (cell : Cell) : Value :=
  match b.direction with
  | .hostToEcs => hostValue
  | .ecsToHost => cell.value
  | .bidirectional => b.policy.resolve ⟨hostValue, cell.value, cell.synced⟩

/-- Settle a binding whose two sides differ. -/
def settle (p : Pass ο) (flow : Direction) (handle : Handle) (b : Binding) (hostValue : Value)
    (cell : Cell) : Pass ο :=
  let target := target b hostValue cell
  let conflicts := if b.direction = .bidirectional then p.report.conflicts + 1
    else p.report.conflicts
  let p := { p with
    report := { p.report with conflicts }
    journal := p.journal.note (.synchronizing b.capability handle hostValue cell.value target) }
  let (pulled, p) := p.pull flow b.component cell target
  let (sent, p) := p.send flow handle b.capability hostValue target
  if pulled && sent then p.agree b.component target else p

/-- Visit one binding. -/
def visit (direction : Direction) (handle : Handle) (p : Pass ο) (b : Binding) : Pass ο :=
  match b.direction.restrict direction, p.row.cell? b.component with
  | some flow, some cell =>
    if HostObject.exposes p.object b.capability then
      match HostObject.read p.object b.capability with
      | (.error source, object) => { p with object }.fail handle b.capability source
      | (.ok hostValue, object) =>
        let p := { p with object }
        if hostValue.agrees cell.value then p.agree b.component hostValue
        else p.settle flow handle b hostValue cell
    else p
  | _, _ => p

end Pass

/-- Move values between a host object and the row of its entity. -/
def Table.synchronize (t : Table) (direction : Direction) (handle : Handle) (object : ο)
    (row : Row) (journal : Journal) : Pass ο :=
  t.bindings.foldl (Pass.visit direction handle)
    { object, row, report := { entities := 1 }, journal }

end Tether
