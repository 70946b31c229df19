import Tether.Entity.Registry
import Tether.World.Basic

/-!
# What a listener sees

During delivery nothing structural can change. A `View` is the part of the state that a
listener may read meanwhile : bindings, components of bound entities and component names.
-/

namespace Tether

/-- The readable state during delivery. -/
structure View where
  registry : Registry
  world : World
  components : ComponentNames

namespace View

/-- The handle bound to a host identity. -/
def lookup? (v : View) (id : HostId) : Option Handle := v.registry.lookup? id

/-- The host object behind a bound handle. -/
def host? (v : View) (h : Handle) : Option HostRef := v.registry.resolve? h

/-- Whether a handle is bound. -/
def isBound (v : View) (h : Handle) : Bool := v.registry.isBound h

/-- A component of a bound entity. -/
def component? (v : View) (h : Handle) (id : ComponentId) : Option Value :=
  if v.isBound h then v.world.value? h id else none

/-- The number of a component name. -/
def componentId? (v : View) (name : String) : Option ComponentId := v.components.find? name

end View

end Tether
