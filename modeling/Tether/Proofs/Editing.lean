import Tether.Proofs.Reconciliation
import Tether.Workload.Crowd

/-!
# Editing

Between two passes both sides of an entity may change. The host changes objects of its own where
they are, each of a list once (`Stage.foldl_editActor`), and the entity world writes components
that are there, one after another (`Coordinator.Holds.writeAll`). Neither changes who is bound, and
of what an entity holds only the edited side is another (`Coordinator.Holds.edited`,
`Coordinator.Holds.writeComponent`).
-/

set_option linter.unusedSectionVars false

namespace Tether

theorem Row.cell?_write (r : Row) (id j : ComponentId) (value : Value) :
    (r.write id value).cell? j =
      if j = id then (r.cell? id).map fun cell => { cell with value } else r.cell? j := by
  cases hcell : r.cell? id with
  | none =>
    have hsame : r.write id value = r := by simp only [write, hcell]
    rw [hsame]
    split
    · rename_i hj
      rw [hj, hcell]
      rfl
    · rfl
  | some cell =>
    have hput : r.write id value = r.put id { cell with value } := by simp only [write, hcell]
    rw [hput, cell?_put]
    rfl

/-! ## Edits of the host -/

namespace Hosts

variable {ο : Type} [HostObject ο] {x : Hosts ο}

theorem get?_update (h : x.AllOwned) (ref : HostRef) (f : ο → ο) (a : Nat) :
    (x.update ref f).cells.get? a =
      if a = ref.address then
        (x.cells.get? a).map fun cell => { cell with object := f cell.object }
      else x.cells.get? a := by
  cases hcell : x.cells.get? ref.address with
  | none =>
    have hsame : x.update ref f = x := by simp only [update, find?, hcell, Option.map_none]
    rw [hsame]
    split
    · rename_i ha
      rw [ha, hcell]
      rfl
    · rfl
  | some cell =>
    have hput : x.update ref f = x.putBack ref (f cell.object) := by
      simp only [update, find?, hcell, Option.map_some]
    rw [hput, get?_putBack]
    split
    · rename_i ha
      rw [ha, hcell, Option.bind_some, if_pos (by simp [h _ _ hcell])]
      rfl
    · rfl

theorem alike_update (h : x.AllOwned) (ref : HostRef) (f : ο → ο) : x.Alike (x.update ref f) := by
  unfold update
  split
  · exact h.alike_putBack ref _
  · exact .refl x

end Hosts

namespace Stage

/-- Host objects that are changed where they are, each once. -/
theorem foldl_editActor (f : PropertyBag → PropertyBag) {refs : List HostRef} {c : Stage}
    (howned : c.hosts.AllOwned) (hapart : (refs.map HostRef.address).Nodup) :
    ∃ hosts, refs.foldl (Crowd.editActor f) c = c.setHosts hosts ∧ c.hosts.Alike hosts ∧
      ∀ a, hosts.cells.get? a =
        if a ∈ refs.map HostRef.address then
          (c.hosts.cells.get? a).map fun cell => { cell with object := f cell.object }
        else c.hosts.cells.get? a := by
  induction refs generalizing c with
  | nil => exact ⟨c.hosts, rfl, .refl _, fun a => by simp⟩
  | cons ref refs ih =>
    obtain ⟨hnot, hapart⟩ := List.nodup_cons.mp hapart
    have hone := c.hosts.get?_update howned ref f
    have halike := c.hosts.alike_update howned ref f
    obtain ⟨hosts, hstate, hrest, hcells⟩ :=
      ih (c := Crowd.editActor f c ref) (halike.allOwned howned) hapart
    refine ⟨hosts, hstate, halike.trans hrest, fun a => (hcells a).trans ?_⟩
    rw [show (Crowd.editActor f c ref).hosts.cells.get? a = _ from hone a, List.map_cons]
    by_cases ha : a = ref.address
    · rw [if_neg (ha ▸ hnot), if_pos ha, if_pos (ha ▸ List.mem_cons_self)]
    · simp only [ha, ↓reduceIte, List.mem_cons, false_or]

end Stage

namespace Coordinator

variable {σ : Type} {c d : Coordinator PropertyBag σ} {b : Binding} {h : Handle} {x : Value}
  {cell : Cell}

/-- The host's property of an entity that holds something. -/
theorem Holds.property (hh : c.Holds b h x cell) : ∃ ref object, c.registry.resolve? h = some ref ∧
    c.hosts.find? ref = some object ∧ object.get? b.capability = some x := by
  obtain ⟨ref, object, row, hpair, -, hx, -⟩ := hh
  obtain ⟨href, hobject, -⟩ := pair?_eq_some_iff.mp hpair
  exact ⟨ref, object, href, hobject, hx⟩

theorem Holds.component? (hh : c.Holds b h x cell) :
    c.component? h b.component = some cell.value := by
  obtain ⟨ref, object, row, hpair, -, -, hcell⟩ := hh
  obtain ⟨href, -, hrow⟩ := pair?_eq_some_iff.mp hpair
  obtain ⟨e, hbound, -⟩ := Registry.resolve?_eq_some_iff.mp href
  have hb : c.registry.isBound h = true :=
    Registry.isBound_iff.mpr ⟨e, Registry.bound_eq_ok_iff.mp hbound⟩
  rw [Coordinator.component?, if_pos hb, World.value?, hrow]
  exact congrArg (Option.map Cell.value) hcell

/-- The host object of an entity is changed, and the entity is left as it is. -/
theorem Holds.edited (hh : c.Holds b h x cell) {ref : HostRef} {object : PropertyBag}
    (href : c.registry.resolve? h = some ref) (hobject : c.hosts.find? ref = some object)
    {hosts : Hosts PropertyBag} {f : PropertyBag → PropertyBag}
    (hcell : hosts.cells.get? ref.address = (c.hosts.cells.get? ref.address).map fun cell =>
      { cell with object := f cell.object }) {x' : Value}
    (hx : (f object).get? b.capability = some x') : (c.setHosts hosts).Holds b h x' cell := by
  obtain ⟨ref', object', row, hpair, howned, -, hvalue⟩ := hh
  obtain ⟨href', hobject', hrow⟩ := pair?_eq_some_iff.mp hpair
  obtain rfl := Option.some.inj (href.symm.trans href')
  obtain rfl := Option.some.inj (hobject.symm.trans hobject')
  rw [howned, Option.map_some] at hcell
  refine ⟨ref, f object, row, pair?_eq_some_iff.mpr ⟨href, ?_, hrow⟩, hcell, hx, hvalue⟩
  show hosts.find? ref = _
  rw [Hosts.find?, hcell]
  rfl

/-! ## Edits of the entity world -/

theorem Holds.writeComponent (hh : c.Holds b h x cell) (j : Handle) (id : ComponentId)
    (value : Value) : (c.writeComponent j id value).2.Holds b h x
      { cell with value := if j = h ∧ id = b.component then value else cell.value } := by
  have hcomponent := hh.component?
  obtain ⟨ref, object, row, hpair, howned, hx, hcell⟩ := hh
  obtain ⟨href, hobject, hrow⟩ := pair?_eq_some_iff.mp hpair
  unfold Coordinator.writeComponent
  by_cases hsome : (c.component? j id).isSome = true
  · rw [if_pos hsome]
    have hhandle : ∀ r, c.world.row? j = some r → (r.write id value).handle = j := fun r hr =>
      (r.alike_write id value).handle.trans (World.row?_eq_some_iff.mp hr).2
    have hrow' := c.world.row?_modify hhandle h
    by_cases hj : h = j
    · subst hj
      rw [if_pos rfl, hrow, Option.map_some] at hrow'
      refine ⟨ref, object, row.write id value, pair?_eq_some_iff.mpr ⟨href, hobject, hrow'⟩, howned,
        hx, ?_⟩
      rw [Row.cell?_write]
      by_cases hid : b.component = id
      · subst hid
        simp [hcell]
      · simp [hcell, hid, Ne.symm hid]
    · rw [if_neg hj, hrow] at hrow'
      refine ⟨ref, object, row, pair?_eq_some_iff.mpr ⟨href, hobject, hrow'⟩, howned, hx, ?_⟩
      rw [if_neg fun hboth => hj hboth.1.symm]
      exact hcell
  · have hother : ¬(j = h ∧ id = b.component) := by
      rintro ⟨rfl, rfl⟩
      rw [hcomponent] at hsome
      exact hsome rfl
    rw [if_neg hsome, if_neg hother]
    exact ⟨ref, object, row, hpair, howned, hx, hcell⟩

/-- Write a component of entities, one after another. -/
def writeAll (id : ComponentId) (c : Coordinator PropertyBag σ) (writes : List (Handle × Value)) :
    Coordinator PropertyBag σ :=
  writes.foldl (fun c w => (c.writeComponent w.1 id w.2).2) c

/-- The value of an entity after such writes : what was written to it last. -/
def lastWritten (h : Handle) (v : Value) (writes : List (Handle × Value)) : Value :=
  writes.foldl (fun v w => if w.1 = h then w.2 else v) v

/-- Writing changes nothing but the rows. -/
theorem writeAll_eq (id : ComponentId) (c : Coordinator PropertyBag σ)
    (writes : List (Handle × Value)) :
    (∃ world, c.writeAll id writes = { c with world }) ∧
      (c.population.Consistent → (c.writeAll id writes).population.Consistent) := by
  induction writes generalizing c with
  | nil => exact ⟨⟨c.world, rfl⟩, fun h => h⟩
  | cons w writes ih =>
    obtain ⟨⟨world, hrest⟩, hkept⟩ := ih (c.writeComponent w.1 id w.2).2
    have hone : ∃ world, (c.writeComponent w.1 id w.2).2 = { c with world } := by
      unfold Coordinator.writeComponent
      split
      · exact ⟨_, rfl⟩
      · exact ⟨c.world, rfl⟩
    obtain ⟨world', hone⟩ := hone
    refine ⟨⟨world, ?_⟩, fun hp => hkept ((c.calm_writeComponent w.1 id w.2).1.consistent hp)⟩
    rw [writeAll, List.foldl_cons]
    refine hrest.trans ?_
    rw [hone]

theorem Holds.writeAll (hh : c.Holds b h x cell) (id : ComponentId)
    (writes : List (Handle × Value)) :
    (c.writeAll id writes).Holds b h x { cell with
      value := if id = b.component then lastWritten h cell.value writes else cell.value } := by
  induction writes generalizing c cell with
  | nil => simpa [Coordinator.writeAll, lastWritten] using hh
  | cons w writes ih =>
    have hrest := ih (hh.writeComponent w.1 id w.2)
    by_cases hid : id = b.component
    · simp only [hid, and_true, ↓reduceIte] at hrest ⊢
      exact hrest
    · simp only [hid, and_false, ↓reduceIte] at hrest ⊢
      exact hrest

end Coordinator

end Tether
