import Tether.Host.Access

/-!
# Host objects with properties

A `PropertyBag` is a host object that is no more than a set of named values. Its capabilities
are the names; a name that is not there can neither be read nor written through the host
interface, only the host runtime itself adds and removes names.
-/

namespace Tether

/-- Named values. -/
structure PropertyBag where
  properties : List (Capability × Value) := []
  deriving DecidableEq, Inhabited

namespace PropertyBag

/-- The value of a name in a list of named values. -/
def lookup (name : Capability) : List (Capability × Value) → Option Value
  | [] => none
  | (n, v) :: rest => if n = name then some v else lookup name rest

/-- Give a name a value in a list of named values; a new name goes to the end. -/
def assign (name : Capability) (value : Value) :
    List (Capability × Value) → List (Capability × Value)
  | [] => [(name, value)]
  | (n, v) :: rest => if n = name then (name, value) :: rest else (n, v) :: assign name value rest

/-- The value of a property. -/
def get? (b : PropertyBag) (name : Capability) : Option Value := lookup name b.properties

/-- Add or overwrite a property. -/
def set (b : PropertyBag) (name : Capability) (value : Value) : PropertyBag :=
  ⟨assign name value b.properties⟩

/-- Take a property away. -/
def erase (b : PropertyBag) (name : Capability) : PropertyBag :=
  ⟨b.properties.filter fun p => p.1 ≠ name⟩

/-- The bag with these properties, set in order. -/
def ofList (properties : List (Capability × Value)) : PropertyBag :=
  properties.foldl (fun b p => b.set p.1 p.2) {}

theorem lookup_assign (name other : Capability) (value : Value)
    (ps : List (Capability × Value)) :
    lookup other (assign name value ps) = if other = name then some value else lookup other ps := by
  induction ps with
  | nil => simp [assign, lookup, eq_comm]
  | cons p rest ih =>
    obtain ⟨n, v⟩ := p
    unfold assign
    split
    · rename_i hn
      subst hn
      simp only [lookup, eq_comm]
      split <;> rfl
    · rename_i hn
      simp only [lookup, ih]
      by_cases ho : other = name
      · subst ho; simp [hn]
      · simp [ho]

theorem get?_set (b : PropertyBag) (name other : Capability) (value : Value) :
    (b.set name value).get? other = if other = name then some value else b.get? other :=
  lookup_assign name other value b.properties

end PropertyBag

instance : HostObject PropertyBag where
  exposes b capability := (b.get? capability).isSome
  read b capability :=
    match b.get? capability with
    | some value => (.ok value, b)
    | none => (.error (.unsupported capability), b)
  write b capability value :=
    match b.get? capability with
    | some _ => (.ok (), b.set capability value)
    | none => (.error (.unsupported capability), b)
  keepsItself _ := false

end Tether
