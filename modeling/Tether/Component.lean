import Std.Data.TreeMap.Lemmas

/-!
# Component names

Components are known by name and stored by number. `ComponentNames` gives each new name the next
number of a counter and keeps it twice : in a map from names to numbers, and in a list of records,
in which the record of a component stands at the place of its number.
-/

namespace Tether

/-- Number of a component. -/
structure ComponentId where
  number : UInt32
  deriving DecidableEq, Inhabited

/-- The text of a component number. -/
def ComponentId.render (id : ComponentId) : String :=
  "component#" ++ toString id.number.toNat

/-- What is on record for a registered component. -/
structure ComponentInfo where
  id : ComponentId
  name : String
  deriving DecidableEq, Inhabited

/-- The registered component names. -/
structure ComponentNames where
  /-- The number of each name. -/
  numbers : Std.TreeMap String ComponentId := {}
  /-- The record of each component, at the place of its number. -/
  records : Array (Option ComponentInfo) := #[]
  /-- The number that the next new name gets. -/
  next : UInt32 := 0
  deriving Inhabited

namespace ComponentNames

/-- The number that the `n`-th name has. -/
def numbered (n : Nat) : ComponentId := ⟨UInt32.ofNat n⟩

/-- The number of a registered name. -/
def find? (c : ComponentNames) (name : String) : Option ComponentId := c.numbers[name]?

/-- The record of the component with a number. -/
def info? (c : ComponentNames) (id : ComponentId) : Option ComponentInfo :=
  c.records[id.number.toNat]?.join

/-- The name with a number. -/
def name? (c : ComponentNames) (id : ComponentId) : Option String :=
  (c.info? id).map ComponentInfo.name

/-- Put a record at the place of its number. The places up to it that are not there yet are made,
and stay empty. -/
def place (records : Array (Option ComponentInfo)) (info : ComponentInfo) :
    Array (Option ComponentInfo) :=
  let n := info.id.number.toNat
  (records.rightpad (n + 1) none).setIfInBounds n (some info)

/-- The number of a name, which is registered if it is new. -/
def register (c : ComponentNames) (name : String) : ComponentId × ComponentNames :=
  match c.find? name with
  | some id => (id, c)
  | none =>
    let id : ComponentId := ⟨c.next⟩
    (id,
      { numbers := c.numbers.insert name id
        records := place c.records ⟨id, name⟩
        next := c.next + 1 })

/-- How many names are registered. -/
def size (c : ComponentNames) : Nat := c.numbers.size

theorem register_known {c : ComponentNames} {name : String} {id : ComponentId}
    (h : c.find? name = some id) : c.register name = (id, c) := by
  simp [register, h]

theorem register_new {c : ComponentNames} {name : String} (h : c.find? name = none) :
    c.register name = (⟨c.next⟩,
      { numbers := c.numbers.insert name ⟨c.next⟩
        records := place c.records ⟨⟨c.next⟩, name⟩
        next := c.next + 1 }) := by
  simp [register, h]

/-- The record that follows the last one goes to the end. -/
theorem place_next {records : Array (Option ComponentInfo)} {info : ComponentInfo}
    (h : info.id.number.toNat = records.size) : place records info = records.push (some info) := by
  rw [place, h]
  refine Array.ext_getElem? fun i => ?_
  grind [Array.rightpad]

end ComponentNames

end Tether
