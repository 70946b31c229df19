/-!
# Directions of flow

A binding moves values one way or both ways, and a pass over bindings may be limited to one
way. `Direction.restrict` is what both allow.
-/

namespace Tether

/-- Which way values flow. -/
inductive Direction
  | hostToEcs
  | ecsToHost
  | bidirectional
  deriving DecidableEq, Inhabited

namespace Direction

/-- Whether values of the host may be taken. -/
def readsHost : Direction → Bool
  | .ecsToHost => false
  | _ => true

/-- Whether values may be written to the host. -/
def writesHost : Direction → Bool
  | .hostToEcs => false
  | _ => true

/-- The flow that both directions allow, if any. -/
def restrict : Direction → Direction → Option Direction
  | .bidirectional, d => some d
  | d, .bidirectional => some d
  | a, b => if a = b then some a else none

/-- Name of a direction in reports. -/
def label : Direction → String
  | .hostToEcs => "HostToEcs"
  | .ecsToHost => "EcsToHost"
  | .bidirectional => "Bidirectional"

/-- Name of a direction in settings. -/
def keyword : Direction → String
  | .hostToEcs => "host_to_ecs"
  | .ecsToHost => "ecs_to_host"
  | .bidirectional => "bidirectional"

/-- The direction with a name in settings. -/
def ofKeyword? : String → Option Direction
  | "host_to_ecs" => some .hostToEcs
  | "ecs_to_host" => some .ecsToHost
  | "bidirectional" => some .bidirectional
  | _ => none

theorem ofKeyword?_keyword (d : Direction) : ofKeyword? d.keyword = some d := by
  cases d <;> rfl

theorem restrict_eq_some_iff {a b c : Direction} :
    a.restrict b = some c ↔
      (c.readsHost = (a.readsHost && b.readsHost) ∧ c.writesHost = (a.writesHost && b.writesHost)
        ∧ (c.readsHost || c.writesHost) = true) := by
  cases a <;> cases b <;> cases c <;> decide

end Direction

end Tether
