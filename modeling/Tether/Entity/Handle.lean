/-!
# Entity handles

A `Handle` names an entity by the slot that it lives in and by how often that slot was given
back before. A handle that is kept after its entity is gone differs from every later handle of
the same slot in its generation.
-/

namespace Tether

/-- A generational entity handle. -/
structure Handle where
  index : UInt32
  generation : UInt32
  deriving DecidableEq, Hashable, Inhabited

namespace Handle

/-- Place of the handle's entity in storage by slot. -/
def slot (h : Handle) : Nat := h.index.toNat

/-- The text of a handle. -/
def render (h : Handle) : String :=
  "entity " ++ toString h.index.toNat ++ "v" ++ toString h.generation.toNat

/-- Order by slot, then by generation. -/
def compare (a b : Handle) : Ordering :=
  (Ord.compare a.index.toNat b.index.toNat).then
    (Ord.compare a.generation.toNat b.generation.toNat)

end Handle

end Tether
