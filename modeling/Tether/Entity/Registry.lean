import Std.Data.TreeMap.Lemmas
import Tether.Entity.Allocator
import Tether.Error
import Tether.Host.Store

/-!
# The registry of bindings

A `Registry` holds which host object is bound to which entity. A host object has at most one
entity and an entity exactly one host object. A handle that is unknown is told apart from one
that was current once : the first is not bound, the second is stale (`Registry.entry`).
-/

namespace Tether

/-- A binding between a host object and an entity. -/
structure Entry where
  handle : Handle
  host : HostRef
  state : Lifecycle
  /-- Whether a capability could not be read at binding, or a listener failed. -/
  degraded : Bool
  deriving DecidableEq, Inhabited

/-- All bindings, by slot and by the number of the host identity. -/
structure Registry where
  allocator : Allocator := {}
  entries : Slots Entry := {}
  byHost : Std.TreeMap UInt64 Handle := {}
  deriving Inhabited

namespace Registry

/-- The entry that carries a handle. -/
def find? (r : Registry) (h : Handle) : Option Entry :=
  (r.entries.get? h.slot).filter fun e => e.handle = h

/-- The entry that carries a handle, or why there is none : the slot has moved on to another
generation, or nothing was ever bound under the handle. -/
def entry (r : Registry) (h : Handle) : Except Error Entry :=
  match r.find? h with
  | some e => .ok e
  | none =>
    match r.allocator.current? h.index with
    | some generation =>
      if generation = h.generation then .error (.notBound (.handle h))
      else .error (.staleHandle h)
    | none => .error (.notBound (.handle h))

/-- The entry that carries a handle, only if it is fully bound. -/
def bound (r : Registry) (h : Handle) : Except Error Entry :=
  match r.entry h with
  | .ok e => if e.state = .bound then .ok e else .error (.notBound (.handle h))
  | .error error => .error error

/-- Whether a handle is fully bound. -/
def isBound (r : Registry) (h : Handle) : Bool := (r.bound h).toBool

/-- The handle that a host identity has in any lifecycle state. -/
def handleOf? (r : Registry) (id : HostId) : Option Handle := r.byHost[id.number]?

/-- The handle that is fully bound to a host identity. -/
def lookup? (r : Registry) (id : HostId) : Option Handle :=
  match r.handleOf? id with
  | none => none
  | some h => (r.bound h).toOption.map Entry.handle

/-- The host object that a handle is fully bound to. -/
def resolve? (r : Registry) (h : Handle) : Option HostRef :=
  (r.bound h).toOption.map Entry.host

/-- Where the binding of a host identity stands. -/
def stateOf (r : Registry) (id : HostId) : Lifecycle :=
  match r.handleOf? id with
  | none => .unbound
  | some h => ((r.entry h).toOption.map Entry.state).getD .unbound

/-- Issue a handle for a host object. The new entry is still being bound. -/
def bind (r : Registry) (host : HostRef) : Except Error (Handle × Registry) :=
  match r.handleOf? host.id with
  | some h => .error (.alreadyBound host.id h)
  | none =>
    let (h, allocator) := r.allocator.alloc
    .ok (h,
      { allocator
        entries := r.entries.put h.slot ⟨h, host, .binding, false⟩
        byHost := r.byHost.insert host.id.number h })

/-- Remove a binding and give its handle back. -/
def unbind (r : Registry) (h : Handle) : Except Error (HostRef × Registry) :=
  match r.entry h with
  | .error error => .error error
  | .ok e =>
    .ok (e.host,
      { allocator := (r.allocator.free h).2
        entries := r.entries.clear h.slot
        byHost := r.byHost.erase e.host.id.number })

/-- Change the entry that carries a handle; an unknown handle is ignored. -/
def modify (r : Registry) (h : Handle) (f : Entry → Entry) : Registry :=
  match r.find? h with
  | some _ => { r with entries := r.entries.modify h.slot f }
  | none => r

/-- Move an entry to another lifecycle state. -/
def setState (r : Registry) (h : Handle) (state : Lifecycle) : Except Error Registry :=
  match r.entry h with
  | .error error => .error error
  | .ok _ => .ok (r.modify h fun e => { e with state })

/-- Flag an entity as degraded; an unknown or stale handle is ignored. -/
def markDegraded (r : Registry) (h : Handle) : Registry :=
  r.modify h fun e => { e with degraded := true }

/-- Whether an entity is flagged as degraded. -/
def isDegraded (r : Registry) (h : Handle) : Bool :=
  ((r.entry h).toOption.map Entry.degraded).getD false

/-- All fully bound entries in slot order. -/
def boundEntries (r : Registry) : List Entry :=
  r.entries.toList.filter fun e => e.state = .bound

/-- The fully bound entries whose host object is gone, in slot order. -/
def orphans {ο : Type} (r : Registry) (hosts : Hosts ο) : List Handle :=
  (r.boundEntries.filter fun e => !hosts.alive e.host).map Entry.handle

/-- How many bindings there are, in any lifecycle state. -/
def size (r : Registry) : Nat := r.byHost.size

/-- The current generation of a slot, if it was ever allocated. -/
def generationOf? (r : Registry) (index : UInt32) : Option UInt32 := r.allocator.current? index

theorem entry_eq_ok_iff {r : Registry} {h : Handle} {e : Entry} :
    r.entry h = .ok e ↔ r.find? h = some e := by
  unfold entry
  cases r.find? h with
  | some e' => simp
  | none =>
    cases r.allocator.current? h.index with
    | none => simp
    | some generation => by_cases hg : generation = h.generation <;> simp [hg]

theorem handle_of_find? {r : Registry} {h : Handle} {e : Entry} (he : r.find? h = some e) :
    e.handle = h := by
  unfold find? at he
  simpa using (Option.filter_eq_some_iff.mp he).2

end Registry

end Tether
