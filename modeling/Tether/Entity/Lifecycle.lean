import Tether.Entity.Handle
import Tether.Host.Access

/-!
# Lifecycle of an entity

An entity is bound to a host object step by step (`Lifecycle`), and a request about one names
it by its handle or by its host (`Target`).
-/

namespace Tether

/-- Where the binding of a host object stands. Only a bound entity is visible to lookups. -/
inductive Lifecycle
  | unbound
  | binding
  | bound
  | unbinding
  deriving DecidableEq, Inhabited

/-- Name of a lifecycle state. -/
def Lifecycle.name : Lifecycle → String
  | .unbound => "Unbound"
  | .binding => "Binding"
  | .bound => "Bound"
  | .unbinding => "Unbinding"

/-- What a lifecycle request names : an entity, or the host object it is bound to. -/
inductive Target
  | handle (h : Handle)
  | host (id : HostId)
  deriving DecidableEq, Inhabited

/-- The text of a target. -/
def Target.render : Target → String
  | .handle h => h.render
  | .host id => id.render

end Tether
