import Tether.Binding.Table

/-!
# Settings

`Settings` say how a coordinator runs and which bindings it has. A policy is settled here by
name; `Table.ofSettings` looks the names up and registers the bindings in order, and stops at
the first that has no merge function or that repeats an earlier one.
-/

namespace Tether

/-- How many workers share a pass over all entities. A document may leave the number out, and
the machine then puts its own in place of `auto`. Which one that is no text says, so `auto` is a
number that is not known here; settings that run on a machine have `count`. -/
inductive Workers
  | auto
  | count (n : Nat)
  deriving DecidableEq, Inhabited

/-- How many workers to use. What a pass does does not depend on it, and where nothing is said
the pass stays whole. -/
def Workers.number : Workers → Nat
  | .auto => 1
  | .count n => n

/-- Settings of passes over all entities. -/
structure SyncSettings where
  workers : Workers := .auto
  /-- The least number of bound entities for which a pass is shared between workers. -/
  parallelThreshold : Nat := 256
  deriving DecidableEq, Inhabited

/-- Settings of the mutation queue. -/
structure QueueSettings where
  /-- Whether stale mutations are worth a warning. -/
  warnOnStale : Bool := true
  deriving DecidableEq, Inhabited

/-- A conflict policy by name. -/
inductive PolicySetting
  | hostWins
  | ecsWins
  | merge (name : String)
  deriving DecidableEq, Inhabited

/-- A binding as it stands in settings. -/
structure BindingSetting where
  capability : String
  component : String
  direction : Direction := .bidirectional
  policy : PolicySetting := .hostWins
  deriving DecidableEq, Inhabited

/-- All settings. -/
structure Settings where
  sync : SyncSettings := {}
  queue : QueueSettings := {}
  bindings : List BindingSetting := []
  deriving DecidableEq, Inhabited

/-- The policy that a setting names. -/
def PolicySetting.resolve (resolvers : Resolvers) : PolicySetting → Except Error Policy
  | .hostWins => .ok .hostWins
  | .ecsWins => .ok .ecsWins
  | .merge name => resolvers.policy name

/-- The rule that a setting stands for. -/
def BindingSetting.toRule (b : BindingSetting) (policy : Policy) : Rule :=
  ⟨b.capability, b.component, b.direction, policy⟩

namespace Table

/-- Register a rule and tell of it, if it is not refused. -/
def addRule (rule : Rule) (t : Table) (j : Journal) :
    Except Error ComponentId × Table × Journal :=
  match t.register rule with
  | (.error error, t) => (.error error, t, j)
  | (.ok id, t) => (.ok id, t, j.note (registered rule))

/-- Register the bindings of settings one after another, telling of each. -/
def addSettings (resolvers : Resolvers) :
    List BindingSetting → Table → Journal → Except Error Table × Journal
  | [], t, j => (.ok t, j)
  | b :: rest, t, j =>
    match b.policy.resolve resolvers with
    | .error error => (.error error, j)
    | .ok policy =>
      match addRule (b.toRule policy) t j with
      | (.error error, _, j) => (.error error, j)
      | (.ok _, t, j) => addSettings resolvers rest t j

/-- The table of the bindings of settings. -/
def ofSettings (bindings : List BindingSetting) (resolvers : Resolvers) (j : Journal) :
    Except Error Table × Journal :=
  addSettings resolvers bindings {} j

end Table

end Tether
