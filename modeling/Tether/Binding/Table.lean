import Tether.Component
import Tether.Journal

/-!
# The binding table

A `Binding` says that host objects with a capability get a component, which way values flow
between the two, and how a disagreement is settled. A `Table` holds the bindings in order of
registration, and beside them the pairs of a capability and a component that are taken. The order
matters : where two capabilities feed one component, the first one gives it its first value.
-/

namespace Tether

/-- A rule that ties a capability to a component. -/
structure Binding where
  capability : Capability
  component : ComponentId
  componentName : String
  direction : Direction
  policy : Policy
  deriving Inhabited

/-- A rule before its component has a number. -/
structure Rule where
  capability : Capability
  component : String
  direction : Direction := .bidirectional
  policy : Policy := .hostWins
  deriving Inhabited

/-- The registered bindings, and the component names that are known. -/
structure Table where
  components : ComponentNames := {}
  bindings : List Binding := []
  /-- The pairs that are tied, as a set. -/
  pairs : List (Capability × ComponentId) := []
  deriving Inhabited

namespace Table

/-- Register a rule. The component's name becomes known even if the rule is refused, which it
is if the same capability is already tied to the component. The answer is the component's
number. -/
def register (t : Table) (rule : Rule) : Except Error ComponentId × Table :=
  let (id, components) := t.components.register rule.component
  if (rule.capability, id) ∈ t.pairs then
    (.error (.duplicateBinding rule.capability rule.component), { t with components })
  else
    (.ok id,
      { components
        bindings := t.bindings ++
          [⟨rule.capability, id, rule.component, rule.direction, rule.policy⟩]
        pairs := (rule.capability, id) :: t.pairs })

/-- What is told when a rule is registered. -/
def registered (rule : Rule) : Notice :=
  .bindingRegistered rule.capability rule.component rule.direction rule.policy.label

/-- Make a component name known that no binding feeds. -/
def registerComponent (t : Table) (name : String) : ComponentId × Table :=
  let (id, components) := t.components.register name
  (id, { t with components })

/-- How many bindings there are. -/
def size (t : Table) : Nat := t.bindings.length

/-- The bindings whose capability a host object exposes. -/
def applicable {ο : Type} [HostObject ο] (t : Table) (object : ο) : List Binding :=
  t.bindings.filter fun b => HostObject.exposes object b.capability

end Table

end Tether
