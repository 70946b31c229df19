import Tether.Number.Binary64

/-!
# Generators of random numbers

What the workloads draw comes from a `Generator`, which begins with a seed and makes two kinds of
choices. They rely on one thing only, that an index is chosen from those that there are
(`LawfulGenerator`).
-/

namespace Tether

/-- A source of random choices, with the state that it is left in by each. -/
class Generator (ρ : Type) where
  /-- The state that a seed gives. -/
  ofSeed : UInt64 → ρ
  /-- A number from a bound up to another. -/
  between : ρ → Binary64 → Binary64 → Binary64 × ρ
  /-- An index below a bound. -/
  below : ρ → Nat → Nat × ρ

/-- Whatever the state, an index is below its bound. -/
class LawfulGenerator (ρ : Type) [Generator ρ] : Prop where
  below_lt : ∀ {n : Nat}, 0 < n → ∀ s : ρ, (Generator.below s n).1 < n

end Tether
