import Tether.Component
import Tether.Entity.Handle
import Tether.Value

/-!
# Rows of components

A `Row` holds the components of one entity. Each has a `Cell` : its present value, and the
value on which both sides last agreed, which synchronization compares against. The components
of a row are listed in ascending order of their numbers.
-/

namespace Tether

/-- A component value with the value of the last agreement. -/
structure Cell where
  value : Value
  synced : Value
  deriving DecidableEq, Inhabited

namespace Cell

/-- A cell on whose value both sides agree. -/
def agreed (value : Value) : Cell := ⟨value, value⟩

/-- Whether the value changed since the last agreement. -/
def isDirty (c : Cell) : Bool := !c.value.agrees c.synced

end Cell

/-- The components of one entity. -/
structure Row where
  handle : Handle
  cells : List (ComponentId × Cell) := []
  deriving DecidableEq, Inhabited

namespace Row

/-- The cell with a number in a list of cells. -/
def lookup (id : ComponentId) : List (ComponentId × Cell) → Option Cell
  | [] => none
  | (i, c) :: rest => if i = id then some c else lookup id rest

/-- Put a cell into an ascending list, in place of one with the same number. -/
def place (id : ComponentId) (cell : Cell) :
    List (ComponentId × Cell) → List (ComponentId × Cell)
  | [] => [(id, cell)]
  | (i, c) :: rest =>
    if i = id then (id, cell) :: rest
    else if id.number < i.number then (id, cell) :: (i, c) :: rest
    else (i, c) :: place id cell rest

/-- The cell of a component. -/
def cell? (r : Row) (id : ComponentId) : Option Cell := lookup id r.cells

/-- The value of a component. -/
def value? (r : Row) (id : ComponentId) : Option Value := (r.cell? id).map Cell.value

/-- Whether the row has a component. -/
def contains (r : Row) (id : ComponentId) : Bool := (r.cell? id).isSome

/-- Put a cell under a number. -/
def put (r : Row) (id : ComponentId) (cell : Cell) : Row :=
  { r with cells := place id cell r.cells }

/-- Add or overwrite a component; both sides agree on it from then on. -/
def insert (r : Row) (id : ComponentId) (value : Value) : Row := r.put id (Cell.agreed value)

/-- Change the present value of a component, as a system of the entity world would. -/
def write (r : Row) (id : ComponentId) (value : Value) : Row :=
  match r.cell? id with
  | some c => r.put id { c with value }
  | none => r

/-- Take a component away. -/
def erase (r : Row) (id : ComponentId) : Row :=
  { r with cells := r.cells.filter fun c => c.1 ≠ id }

/-- All components with their values, in ascending order. -/
def snapshot (r : Row) : List (ComponentId × Value) := r.cells.map fun c => (c.1, c.2.value)

/-- How many components the row has. -/
def size (r : Row) : Nat := r.cells.length

theorem lookup_place (id j : ComponentId) (cell : Cell) (cells : List (ComponentId × Cell)) :
    lookup j (place id cell cells) = if j = id then some cell else lookup j cells := by
  induction cells with
  | nil => simp [place, lookup, eq_comm]
  | cons head rest ih =>
    obtain ⟨i, c⟩ := head
    unfold place
    split
    · rename_i hi
      subst hi
      simp only [lookup, eq_comm]
      split <;> rfl
    · split
      · simp only [lookup, eq_comm]
      · rename_i hne _
        simp only [lookup, ih]
        by_cases hj : j = id
        · subst hj; simp [hne]
        · simp [hj]

theorem cell?_put (r : Row) (id j : ComponentId) (cell : Cell) :
    (r.put id cell).cell? j = if j = id then some cell else r.cell? j :=
  lookup_place id j cell r.cells

theorem cell?_insert (r : Row) (id j : ComponentId) (value : Value) :
    (r.insert id value).cell? j = if j = id then some (Cell.agreed value) else r.cell? j :=
  cell?_put r id j _

theorem lookup_filter (id j : ComponentId) (cells : List (ComponentId × Cell)) :
    lookup j (cells.filter fun c => c.1 ≠ id) = if j = id then none else lookup j cells := by
  induction cells with
  | nil => simp [lookup]
  | cons head rest ih =>
    obtain ⟨i, c⟩ := head
    by_cases hi : i = id
    · subst hi
      rw [List.filter_cons_of_neg (by simp), ih]
      by_cases hj : j = i
      · simp [hj]
      · simp [hj, lookup, Ne.symm hj]
    · rw [List.filter_cons_of_pos (by simpa using hi)]
      simp only [lookup, ih]
      by_cases hj : j = id
      · subst hj; simp [hi]
      · simp [hj]

theorem cell?_erase (r : Row) (id j : ComponentId) :
    (r.erase id).cell? j = if j = id then none else r.cell? j :=
  lookup_filter id j r.cells

end Row

end Tether
