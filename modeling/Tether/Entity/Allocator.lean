import Tether.Entity.Handle

/-!
# Allocation of handles

An `Allocator` keeps the current generation of every slot ever used and the slots that were
given back, oldest first. A handle is issued for the slot that was given back longest ago, or
for a new slot if there is none; giving a handle back moves its slot on to the next generation,
so the handle is never issued again until the generations of its slot come round.
-/

namespace Tether

/-- Handles in circulation. -/
structure Allocator where
  /-- Current generation of every slot ever allocated. -/
  generations : Array UInt32 := #[]
  /-- Slots that were given back, oldest first. -/
  pool : List UInt32 := []
  deriving Inhabited

namespace Allocator

/-- The current generation of a slot, if it was ever allocated. -/
def current? (a : Allocator) (index : UInt32) : Option UInt32 := a.generations[index.toNat]?

/-- Issue a handle. -/
def alloc (a : Allocator) : Handle × Allocator :=
  match a.pool with
  | index :: pool => (⟨index, (a.current? index).getD 0⟩, { a with pool })
  | [] =>
    (⟨UInt32.ofNat a.generations.size, 0⟩, { a with generations := a.generations.push 0 })

/-- Whether a handle carries the current generation of its slot. -/
def isCurrent (a : Allocator) (h : Handle) : Bool := a.current? h.index = some h.generation

/-- Give a handle back. The answer is whether it carried the current generation of its slot;
otherwise nothing happens. -/
def free (a : Allocator) (h : Handle) : Bool × Allocator :=
  if a.isCurrent h then
    (true, { generations := a.generations.setIfInBounds h.slot (h.generation + 1)
             pool := a.pool ++ [h.index] })
  else (false, a)

/-- How many slots were ever allocated. -/
def capacity (a : Allocator) : Nat := a.generations.size

/-- How many slots wait to be used again. -/
def pooled (a : Allocator) : Nat := a.pool.length

theorem free_of_not_isCurrent {a : Allocator} {h : Handle} (hc : a.isCurrent h = false) :
    a.free h = (false, a) := by simp [free, hc]

theorem free_fst (a : Allocator) (h : Handle) : (a.free h).1 = a.isCurrent h := by
  unfold free
  split <;> simp_all

end Allocator

end Tether
