import Tether.Host.Access
import Tether.Slots

/-!
# Host objects in existence

The library never owns a host object. It keeps a `HostRef`, which names an object by its
identity and by the address under which it was created, and which stays when the object is
gone. A `Hosts` store holds the objects that exist. An object exists while the host runtime
owns it or while it keeps itself; `Hosts.borrow` uses an object for the length of one call, and
an object that nothing keeps any longer is gone when the call ends.
-/

namespace Tether

/-- A reference to a host object that does not keep it in existence. -/
structure HostRef where
  id : HostId
  address : Nat
  deriving DecidableEq, Inhabited

/-- Two references are the same reference when they name the same identity, whether or not
their objects exist. -/
def HostRef.same (a b : HostRef) : Bool := a.id = b.id

/-- A host object with whether the host runtime owns it. -/
structure HostCell (ο : Type) where
  object : ο
  owned : Bool

/-- The host objects in existence, by address. -/
structure Hosts (ο : Type) where
  cells : Slots (HostCell ο) := {}
  /-- Addresses given out so far. -/
  created : Nat := 0

namespace Hosts

variable {ο : Type} [HostObject ο]

/-- Keep a cell only if the host runtime or the object itself keeps it. -/
def settle (hosts : Hosts ο) (address : Nat) (cell : HostCell ο) : Hosts ο :=
  { hosts with
    cells := if cell.owned || HostObject.keepsItself cell.object
      then hosts.cells.put address cell else hosts.cells.clear address }

/-- Bring an object into existence. -/
def create (hosts : Hosts ο) (id : HostId) (object : ο) (owned : Bool) : HostRef × Hosts ο :=
  (⟨id, hosts.created⟩,
    { hosts with created := hosts.created + 1 }.settle hosts.created ⟨object, owned⟩)

/-- The object behind a reference, if it exists. -/
def find? (hosts : Hosts ο) (ref : HostRef) : Option ο :=
  (hosts.cells.get? ref.address).map HostCell.object

/-- Whether the object behind a reference exists. -/
def alive (hosts : Hosts ο) (ref : HostRef) : Bool := (hosts.cells.get? ref.address).isSome

/-- The host runtime gives up its ownership. The answer is whether it had it. -/
def release (hosts : Hosts ο) (ref : HostRef) : Bool × Hosts ο :=
  match hosts.cells.get? ref.address with
  | some cell =>
    if cell.owned then (true, hosts.settle ref.address { cell with owned := false })
    else (false, hosts)
  | none => (false, hosts)

/-- Put back an object after a call used it. -/
def putBack (hosts : Hosts ο) (ref : HostRef) (object : ο) : Hosts ο :=
  match hosts.cells.get? ref.address with
  | some cell => hosts.settle ref.address { cell with object }
  | none => hosts

/-- The host runtime changes an object of its own, if it exists. -/
def update (hosts : Hosts ο) (ref : HostRef) (f : ο → ο) : Hosts ο :=
  match hosts.find? ref with
  | some object => hosts.putBack ref (f object)
  | none => hosts

/-- Use an object for the length of one call, if it exists. -/
def borrow {α : Type} (hosts : Hosts ο) (ref : HostRef) (call : ο → α × ο) :
    Option (α × Hosts ο) :=
  (hosts.find? ref).map fun object =>
    let (a, object) := call object
    (a, hosts.putBack ref object)

end Hosts

end Tether
