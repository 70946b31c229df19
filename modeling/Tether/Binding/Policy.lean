import Tether.Error
import Tether.Value

/-!
# Conflict policies

When the two sides of a binding that flows both ways differ, its `Policy` says which value
both should hold. A merge policy computes it with a `Resolver` from the two values and from
the base, the value on which both sides last agreed. `Resolvers` are the merge functions that
settings can name.
-/

namespace Tether

/-- The three values that a merge sees. -/
structure Merge where
  host : Value
  ecs : Value
  /-- The value on which both sides last agreed. -/
  base : Value
  deriving DecidableEq, Inhabited

/-- A merge function. -/
abbrev Resolver := Merge → Value

/-- How a conflict is settled. -/
inductive Policy
  | hostWins
  | ecsWins
  | merge (name : String) (resolver : Resolver)

namespace Policy

instance : Inhabited Policy := ⟨.hostWins⟩

/-- The value that both sides should hold. -/
def resolve : Policy → Merge → Value
  | .hostWins, m => m.host
  | .ecsWins, m => m.ecs
  | .merge _ resolver, m => resolver m

/-- Name of a policy in reports. -/
def label : Policy → String
  | .hostWins => "HostWins"
  | .ecsWins => "EcsWins"
  | .merge name _ => "Merge(" ++ name ++ ")"

end Policy

namespace Resolver

/-- Keep the side that moved away from the base; the host wins if both did. -/
def changedSide : Resolver := fun m => if m.host.agrees m.base then m.ecs else m.host

/-- The mean of two numbers. -/
def mean (a b : Binary64) : Binary64 := (a + b) / Binary64.ofNat 2

/-- The mean of two integers, rounded toward zero. -/
def meanInt (a b : Int64) : Int64 := Int64.ofInt (Int.tdiv (a.toInt + b.toInt) 2)

/-- The mean of numbers of one shape, part by part; anything else keeps the host's value. -/
def average : Resolver := fun m =>
  match m.host, m.ecs with
  | .float a, .float b => .float (mean a b)
  | .int a, .int b => .int (meanInt a b)
  | .vec3 a₁ a₂ a₃, .vec3 b₁ b₂ b₃ => .vec3 (mean a₁ b₁) (mean a₂ b₂) (mean a₃ b₃)
  | host, _ => host

end Resolver

/-- Merge functions by name; of two with one name the later counts. -/
structure Resolvers where
  entries : List (String × Resolver) := []

namespace Resolvers

/-- No merge function. -/
def empty : Resolvers := {}

/-- Add a merge function under a name. -/
def register (r : Resolvers) (name : String) (resolver : Resolver) : Resolvers :=
  ⟨(name, resolver) :: r.entries⟩

/-- The merge function with a name. -/
def find? (r : Resolvers) (name : String) : Option Resolver :=
  (r.entries.find? fun e => e.1 = name).map Prod.snd

/-- Whether a name is taken. -/
def contains (r : Resolvers) (name : String) : Bool := (r.find? name).isSome

/-- The merge policy with a name. -/
def policy (r : Resolvers) (name : String) : Except Error Policy :=
  match r.find? name with
  | some resolver => .ok (.merge name resolver)
  | none => .error (.unknownResolver name)

/-- The merge functions that are always there. -/
def builtin : Resolvers :=
  (empty.register "changed_side" Resolver.changedSide).register "average" Resolver.average

instance : Inhabited Resolvers := ⟨builtin⟩

theorem find?_register (r : Resolvers) (name other : String) (resolver : Resolver) :
    (r.register name resolver).find? other =
      if other = name then some resolver else r.find? other := by
  unfold register find?
  by_cases h : name = other
  · subst h; simp
  · simp [h, Ne.symm h]

end Resolvers

end Tether
