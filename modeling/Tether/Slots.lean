import Std.Data.ExtTreeMap

/-!
# Storage by slot

`Slots α` holds at most one item for each slot number, and `toList` gives the items in slot
order. The view of it is `get?` : each operation is described by what it does to `get?`,
`mem_toList` says that the list holds what `get?` finds, and storage in which `get?` finds the
same is the same storage (`ext`). The map behind it is ordered and shares what a change leaves
alone, so that an older state may be kept beside a newer one.
-/

namespace Tether

/-- Items by slot number. -/
structure Slots (α : Type) where
  cells : Std.ExtTreeMap Nat α := {}

namespace Slots

variable {α : Type}

instance : Inhabited (Slots α) := ⟨{}⟩

/-- The item of a slot. -/
def get? (s : Slots α) (i : Nat) : Option α := s.cells[i]?

/-- Fill a slot. -/
def put (s : Slots α) (i : Nat) (a : α) : Slots α := ⟨s.cells.insert i a⟩

/-- Empty a slot. -/
def clear (s : Slots α) (i : Nat) : Slots α := ⟨s.cells.erase i⟩

/-- Replace the item of a filled slot. -/
def modify (s : Slots α) (i : Nat) (f : α → α) : Slots α := ⟨s.cells.modify i f⟩

/-- The items in slot order. -/
def toList (s : Slots α) : List α := s.cells.toList.map Prod.snd

/-- Storage is what look-up finds, however it was filled. -/
@[ext] theorem ext {s t : Slots α} (h : ∀ i, s.get? i = t.get? i) : s = t := by
  obtain ⟨cells⟩ := s
  obtain ⟨cells'⟩ := t
  exact congrArg Slots.mk (Std.ExtTreeMap.ext_getElem? h)

@[simp] theorem get?_empty (i : Nat) : ({} : Slots α).get? i = none := by simp [get?]

theorem get?_put (s : Slots α) (i j : Nat) (a : α) :
    (s.put i a).get? j = if j = i then some a else s.get? j := by
  simp [get?, put, Std.ExtTreeMap.getElem?_insert, @eq_comm _ j i]

theorem get?_clear (s : Slots α) (i j : Nat) :
    (s.clear i).get? j = if j = i then none else s.get? j := by
  simp [get?, clear, Std.ExtTreeMap.getElem?_erase, @eq_comm _ j i]

theorem get?_modify (s : Slots α) (i j : Nat) (f : α → α) :
    (s.modify i f).get? j = if j = i then (s.get? j).map f else s.get? j := by
  by_cases hj : j = i
  · subst hj
    simp [get?, modify]
  · simp [get?, modify, Std.ExtTreeMap.getElem?_modify, hj, Ne.symm hj]

theorem mem_toList {s : Slots α} {a : α} : a ∈ s.toList ↔ ∃ i, s.get? i = some a := by
  simp [toList, get?, Std.ExtTreeMap.mem_toList_iff_getElem?_eq_some]

end Slots

end Tether
