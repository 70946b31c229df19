import Tether.Slots
import Tether.World.Row

/-!
# The entity world

A `World` holds one row for each entity, at the slot of its handle. A row is reached only
through the handle that it carries, so an old handle of a reused slot finds nothing.
-/

namespace Tether

/-- The rows of all entities. -/
structure World where
  rows : Slots Row := {}
  /-- How many rows there are. -/
  size : Nat := 0
  deriving Inhabited

namespace World

/-- The row that carries a handle. -/
def row? (w : World) (h : Handle) : Option Row :=
  (w.rows.get? h.slot).filter fun r => r.handle = h

/-- Whether there is a row for a handle. -/
def contains (w : World) (h : Handle) : Bool := (w.row? h).isSome

/-- The value of a component of an entity. -/
def value? (w : World) (h : Handle) (id : ComponentId) : Option Value :=
  (w.row? h).bind fun r => r.value? id

/-- Give a handle an empty row, unless its slot is taken. -/
def spawn (w : World) (h : Handle) : World :=
  match w.rows.get? h.slot with
  | some _ => w
  | none => { rows := w.rows.put h.slot { handle := h }, size := w.size + 1 }

/-- Take the row of a handle away. -/
def despawn (w : World) (h : Handle) : World :=
  match w.row? h with
  | some _ => { rows := w.rows.clear h.slot, size := w.size - 1 }
  | none => w

/-- Change the row of a handle. -/
def modify (w : World) (h : Handle) (f : Row → Row) : World :=
  match w.row? h with
  | some _ => { w with rows := w.rows.modify h.slot f }
  | none => w

/-- Replace the row of the handle that the new row carries. -/
def store (w : World) (r : Row) : World := w.modify r.handle fun _ => r

/-- All rows in slot order. -/
def toList (w : World) : List Row := w.rows.toList

end World

end Tether
