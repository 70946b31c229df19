import Std.Data.HashMap
import Tether.Entity.Handle
import Tether.Journal

/-!
# Which names were raised for which entity

A `Lookup` remembers for one frame which signal names were raised for each entity. A name is
interned to one bit of a 64-bit word, so at most `Lookup.maxNames` names are told apart between
resets; later names are delivered but not remembered.
-/

namespace Tether

/-- Names raised since the last reset, and for each entity the bits of its names. -/
structure Lookup where
  /-- Interned names; the bit of a name is its place. -/
  names : Array String := #[]
  masks : Std.HashMap Handle UInt64 := {}
  deriving Inhabited

namespace Lookup

/-- How many names can be told apart. -/
def maxNames : Nat := 64

/-- The word with one bit set. -/
def bit (i : Nat) : UInt64 := 1 <<< UInt64.ofNat i

/-- The bit of a name, which is interned if it is new, or zero if there is no bit left. -/
def flag (l : Lookup) (name : String) : UInt64 × Lookup :=
  match l.names.findIdx? (· = name) with
  | some i => (bit i, l)
  | none =>
    if maxNames ≤ l.names.size then (0, l)
    else (bit l.names.size, { l with names := l.names.push name })

/-- Whether there is no bit for a name. -/
def isFullFor (l : Lookup) (name : String) : Bool :=
  (l.names.findIdx? (· = name)).isNone && maxNames ≤ l.names.size

/-- Remember the bits of a word for an entity. -/
def add (l : Lookup) (entity : Handle) (flag : UInt64) : Lookup :=
  if flag = 0 then l
  else { l with masks := l.masks.insert entity ((l.masks[entity]?).getD 0 ||| flag) }

/-- Names raised for an entity since the last reset, in order of first raising. -/
def signalsFor (l : Lookup) (entity : Handle) : List String :=
  match l.masks[entity]? with
  | none => []
  | some mask =>
    (l.names.toList.zipIdx.filter fun n => mask &&& bit n.2 ≠ 0).map Prod.fst

/-- Forget everything. -/
def reset (_ : Lookup) : Lookup := {}

end Lookup

end Tether
