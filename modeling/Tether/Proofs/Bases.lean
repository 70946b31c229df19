import Tether.Proofs.Settlement
import Tether.Proofs.Workers

/-!
# Bases

A binding that flows both ways and keeps the side that changed compares the host's value with the
base of the component. `Binding.merged` says what a pass makes of the two sides of such a binding
and of its base : it moves the base if it can bring both sides together, and otherwise leaves it
where it is (`Binding.base_merged`).

Where no other binding shares its capability or its component, the other bindings leave both
sides alone, so a whole pass does to it what one visit does (`Table.sides_synchronize`), and it is
this binding that gives the component its first value (`Table.cell?_materialize`).
-/

set_option linter.unusedSectionVars false

namespace Tether

/-! ## One binding -/

namespace Binding

/-- The binding flows both ways and keeps the side that changed. -/
structure KeepsChanged (b : Binding) : Prop where
  direction : b.direction = .bidirectional
  policy : ∃ name, b.policy = .merge name Resolver.changedSide

/-- The binding is one of a list, and the others share neither its capability nor its component. -/
def Alone (b : Binding) (bs : List Binding) : Prop :=
  ∃ before after, bs = before ++ b :: after ∧ ∀ a ∈ before ++ after, a.Separate b

/-- What a pass makes of the host's value and the cell of the component. -/
def merged (direction : Direction) (x : Value) (cell : Cell) : Value × Cell :=
  if x.agrees cell.value then (x, { cell with synced := x })
  else if x.agrees cell.synced then
    if direction.writesHost then (cell.value, { cell with synced := cell.value }) else (x, cell)
  else if direction.readsHost then (x, Cell.agreed x) else (x, cell)

/-- Where both sides agree in the end the base agrees with them, and otherwise it is as before. -/
theorem base_merged (direction : Direction) {x : Value} {cell : Cell} (hx : x.hasNaN = false)
    (hy : cell.value.hasNaN = false) :
    let m := merged direction x cell
    if m.1.agrees m.2.value then m.2.synced.agrees m.1 = true
    else m.2.synced = cell.synced := by
  rw [← Value.agrees_self_iff] at hx hy
  intro m
  simp only [m, merged]
  split
  · simp [hx]
  · split
    · split <;> simp [hy]
    · split <;> simp [hx, Cell.agreed]

/-- In both directions the component keeps its value and the host gets it, if the host's value is
still that of the base. -/
theorem merged_of_edit {x : Value} {cell : Cell} (hdiffers : x.agrees cell.value = false)
    (hbase : x.agrees cell.synced = true) :
    merged .bidirectional x cell = (cell.value, { cell with synced := cell.value }) := by
  simp [merged, hdiffers, hbase, Direction.writesHost]

/-- In both directions the component gets the host's value, if that is not the value of the base. -/
theorem merged_of_moved {x : Value} {cell : Cell} (hdiffers : x.agrees cell.value = false)
    (hbase : x.agrees cell.synced = false) :
    merged .bidirectional x cell = (x, Cell.agreed x) := by
  simp [merged, hdiffers, hbase, Direction.readsHost]

end Binding

namespace Pass

/-- Neither side of a binding changes from one state of a pass to another. -/
structure Spares (b : Binding) (p q : Pass PropertyBag) : Prop where
  property : q.object.get? b.capability = p.object.get? b.capability
  cell : q.row.cell? b.component = p.row.cell? b.component

theorem Spares.refl (b : Binding) (p : Pass PropertyBag) : Spares b p p := ⟨rfl, rfl⟩

theorem Spares.trans {b : Binding} {p q r : Pass PropertyBag} (h : Spares b p q)
    (h' : Spares b q r) : Spares b p r :=
  ⟨h'.property.trans h.property, h'.cell.trans h.cell⟩

section Spares

variable (p : Pass PropertyBag) {a b : Binding} (hs : a.Separate b)
include hs

theorem spares_agree (base : Value) : Spares b p (p.agree a.component base) := by
  unfold agree
  split
  · exact ⟨rfl, by rw [Row.cell?_put, if_neg (Ne.symm hs.2)]⟩
  · exact .refl b p

theorem spares_pull (flow : Direction) (cell : Cell) (target : Value) :
    Spares b p (p.pull flow a.component cell target).2 := by
  unfold pull
  split
  · exact .refl b p
  · split
    · exact ⟨rfl, by rw [Row.cell?_put, if_neg (Ne.symm hs.2)]⟩
    · exact .refl b p

theorem spares_send (flow : Direction) (handle : Handle) (hostValue target : Value) :
    Spares b p (p.send flow handle a.capability hostValue target).2 := by
  unfold send
  split
  · exact .refl b p
  · split
    · cases hget : p.object.get? a.capability with
      | none =>
        simp only [HostObject.write, hget]
        exact ⟨rfl, rfl⟩
      | some v =>
        simp only [HostObject.write, hget]
        exact ⟨by rw [PropertyBag.get?_set, if_neg (Ne.symm hs.1)], rfl⟩
    · exact .refl b p

theorem spares_settle (flow : Direction) (handle : Handle) (hostValue : Value) (cell : Cell) :
    Spares b p (p.settle flow handle a hostValue cell) := by
  unfold settle
  dsimp only
  generalize hq : Pass.mk p.object p.row _ _ = q
  have hstart : Spares b p q := by rw [← hq]; exact ⟨rfl, rfl⟩
  have hpull := hstart.trans (q.spares_pull hs flow cell (target a hostValue cell))
  have hsend := hpull.trans
    ((q.pull flow a.component cell (target a hostValue cell)).2.spares_send hs flow handle
      hostValue (target a hostValue cell))
  split
  · exact hsend.trans (spares_agree _ hs _)
  · exact hsend

/-- A visit of another binding. -/
theorem spares_visit (direction : Direction) (handle : Handle) :
    Spares b p (p.visit direction handle a) := by
  unfold visit
  split
  · split
    · cases hget : p.object.get? a.capability with
      | none =>
        simp only [HostObject.read, hget]
        exact ⟨rfl, rfl⟩
      | some v =>
        simp only [HostObject.read, hget]
        split
        · exact p.spares_agree hs v
        · exact p.spares_settle hs _ handle v _
    · exact .refl b p
  · exact .refl b p

end Spares

theorem spares_foldl (direction : Direction) (handle : Handle) {b : Binding} {bs : List Binding}
    (hbs : ∀ a ∈ bs, a.Separate b) (p : Pass PropertyBag) :
    Spares b p (bs.foldl (visit direction handle) p) := by
  induction bs generalizing p with
  | nil => exact .refl b p
  | cons a bs ih =>
    exact (p.spares_visit (hbs a (by simp)) direction handle).trans
      (ih (fun c hc => hbs c (List.mem_cons_of_mem _ hc)) _)

/-- The host's value and the cell of a binding, in the state of a pass. -/
structure Sides (b : Binding) (x : Value) (cell : Cell) (p : Pass PropertyBag) : Prop where
  property : p.object.get? b.capability = some x
  cell : p.row.cell? b.component = some cell

theorem Spares.sides {b : Binding} {x : Value} {cell : Cell} {p q : Pass PropertyBag}
    (h : Spares b p q) (hs : Sides b x cell p) : Sides b x cell q :=
  ⟨h.property.trans hs.property, h.cell.trans hs.cell⟩

section Sides

variable {b : Binding} {x : Value} {cell : Cell} {p : Pass PropertyBag}

theorem Sides.agree (hs : Sides b x cell p) (base : Value) :
    Sides b x { cell with synced := base } (p.agree b.component base) := by
  simp only [Pass.agree, hs.cell]
  exact ⟨hs.property, by rw [Row.cell?_put, if_pos rfl]⟩

/-- The host's value stays, and the component and its base get it if the flow allows it. -/
theorem Sides.reached_host (hs : Sides b x cell p) (hx : x.agrees x = true)
    (hdiffers : x.agrees cell.value = false) (flow : Direction) (handle : Handle) :
    Sides b x (if flow.readsHost then Cell.agreed x else cell)
      (p.reached flow handle b x cell x) := by
  have hpull : p.pull flow b.component cell x = (flow.readsHost,
      if flow.readsHost then
        { p with
          row := p.row.put b.component { cell with value := x }
          report := { p.report with toEcs := p.report.toEcs + 1 } }
      else p) := by
    unfold pull
    rw [if_neg (by simp [Value.agrees_comm cell.value, hdiffers])]
    cases flow.readsHost <;> rfl
  simp only [reached, hpull, send, hx, ↓reduceIte, Bool.and_true]
  cases flow.readsHost with
  | false => exact hs
  | true =>
    have hpulled : Sides b x { cell with value := x }
        { p with
          row := p.row.put b.component { cell with value := x }
          report := { p.report with toEcs := p.report.toEcs + 1 } } :=
      ⟨hs.property, by rw [Row.cell?_put, if_pos rfl]⟩
    exact hpulled.agree x

/-- The component keeps its value, and the host and the base get it if the flow allows it. -/
theorem Sides.reached_entity (hs : Sides b x cell p) (hy : cell.value.agrees cell.value = true)
    (hdiffers : x.agrees cell.value = false) (flow : Direction) (handle : Handle) :
    Sides b (if flow.writesHost then cell.value else x)
      (if flow.writesHost then { cell with synced := cell.value } else cell)
      (p.reached flow handle b x cell cell.value) := by
  have hwrite : HostObject.write p.object b.capability cell.value =
      (.ok (), p.object.set b.capability cell.value) := by
    simp only [HostObject.write, hs.property]
  simp only [reached, pull, hy, ↓reduceIte, send, hdiffers, Bool.false_eq_true, hwrite,
    Bool.true_and]
  cases flow.writesHost with
  | false => exact hs
  | true =>
    have hsent : Sides b cell.value cell
        { p with
          object := p.object.set b.capability cell.value
          report := { p.report with toHost := p.report.toHost + 1 } } :=
      ⟨by rw [PropertyBag.get?_set, if_pos rfl], hs.cell⟩
    exact hsent.agree cell.value

/-- A visit of the binding itself. -/
theorem Sides.visit (hs : Sides b x cell p) (hb : b.KeepsChanged) (hx : x.hasNaN = false)
    (hy : cell.value.hasNaN = false) (direction : Direction) (handle : Handle) :
    Sides b (Binding.merged direction x cell).1 (Binding.merged direction x cell).2
      (p.visit direction handle b) := by
  rw [← Value.agrees_self_iff] at hx hy
  obtain ⟨name, hpolicy⟩ := hb.policy
  have hrestrict : b.direction.restrict direction = some direction := by rw [hb.direction]; rfl
  have hvisit : p.visit direction handle b =
      if x.agrees cell.value then p.agree b.component x
      else p.settle direction handle b x cell := by
    simp only [Pass.visit, hrestrict, hs.cell, HostObject.exposes, HostObject.read, hs.property,
      Option.isSome_some, ↓reduceIte]
  rw [hvisit]
  unfold Binding.merged
  cases hagrees : x.agrees cell.value with
  | true => exact hs.agree x
  | false =>
    have htarget : target b x cell = if x.agrees cell.synced then cell.value else x := by
      simp only [target, hb.direction, hpolicy, Policy.resolve, Resolver.changedSide]
    have hdiverged : Sides b x cell (p.diverged handle b x cell) := ⟨hs.property, hs.cell⟩
    simp only [Bool.false_eq_true, ↓reduceIte]
    rw [settle_eq, htarget]
    split
    · have hreached := hdiverged.reached_entity hy hagrees direction handle
      split <;> simp_all
    · have hreached := hdiverged.reached_host hx hagrees direction handle
      split <;> simp_all

end Sides

end Pass

namespace Materialized

theorem object_visit (m : Materialized PropertyBag) (handle : Handle) (a : Binding) :
    (m.visit handle a).object = m.object := by
  unfold visit
  split
  · rfl
  · cases hget : m.object.get? a.capability <;> simp only [HostObject.read, hget]

theorem handle_visit (m : Materialized PropertyBag) (handle : Handle) (a : Binding) :
    (m.visit handle a).row.handle = m.row.handle := by
  unfold visit
  split
  · rfl
  · split <;> rfl

theorem handle_foldl_visit (bs : List Binding) (m : Materialized PropertyBag) (handle : Handle) :
    (bs.foldl (visit handle) m).row.handle = m.row.handle := by
  induction bs generalizing m with
  | nil => rfl
  | cons a bs ih => exact (ih _).trans (m.handle_visit handle a)

theorem cell?_visit (m : Materialized PropertyBag) (handle : Handle) (a : Binding)
    (id : ComponentId) :
    (m.visit handle a).row.cell? id =
      if id = a.component then
        (m.row.cell? id).or ((m.object.get? a.capability).map Cell.agreed)
      else m.row.cell? id := by
  unfold visit
  cases hget : m.object.get? a.capability with
  | none => simp [HostObject.exposes, hget]
  | some x =>
    cases hcell : m.row.cell? a.component with
    | some cell =>
      simp only [HostObject.exposes, hget, Row.contains, hcell]
      split <;> simp_all
    | none =>
      simp only [HostObject.exposes, HostObject.read, hget, Row.contains, hcell]
      split <;> simp_all [Row.cell?_insert]

theorem foldl_visit_spares {b : Binding} {bs : List Binding} (hbs : ∀ a ∈ bs, a.Separate b)
    (m : Materialized PropertyBag) (handle : Handle) :
    (bs.foldl (visit handle) m).object = m.object ∧
      (bs.foldl (visit handle) m).row.cell? b.component = m.row.cell? b.component := by
  induction bs generalizing m with
  | nil => exact ⟨rfl, rfl⟩
  | cons a bs ih =>
    obtain ⟨hobject, hcell⟩ := ih (fun c hc => hbs c (List.mem_cons_of_mem _ hc))
      (m.visit handle a)
    refine ⟨hobject.trans (m.object_visit handle a), hcell.trans ?_⟩
    rw [m.cell?_visit, if_neg (Ne.symm (hbs a (by simp)).2)]

end Materialized

/-! ## Whole tables -/

namespace Table

variable {t : Table} {b : Binding} (halone : b.Alone t.bindings)
include halone

/-- What a pass does to the two sides of the binding. -/
theorem sides_synchronize (hb : b.KeepsChanged) {object : PropertyBag} {row : Row} {x : Value}
    {cell : Cell} (hproperty : object.get? b.capability = some x)
    (hcell : row.cell? b.component = some cell) (hx : x.hasNaN = false)
    (hy : cell.value.hasNaN = false) (direction : Direction) (handle : Handle)
    (journal : Journal) :
    Pass.Sides b (Binding.merged direction x cell).1 (Binding.merged direction x cell).2
      (t.synchronize direction handle object row journal) := by
  obtain ⟨before, after, hsplit, hseparate⟩ := halone
  unfold synchronize
  rw [hsplit, List.foldl_append, List.foldl_cons]
  have hearlier : ∀ a ∈ before, a.Separate b := fun a ha =>
    hseparate a (List.mem_append_left _ ha)
  have hbefore := Pass.spares_foldl direction handle hearlier
    { object, row, report := { entities := 1 }, journal }
  have hvisit := (hbefore.sides ⟨hproperty, hcell⟩).visit hb hx hy direction handle
  exact (Pass.spares_foldl direction handle
    (fun a ha => hseparate a (List.mem_append_right _ ha)) _).sides hvisit

/-- Without one of the two sides a pass leaves the other alone. -/
theorem spares_synchronize {object : PropertyBag} {row : Row}
    (hnone : object.get? b.capability = none ∨ row.cell? b.component = none)
    (direction : Direction) (handle : Handle) (journal : Journal) :
    Pass.Spares b { object, row } (t.synchronize direction handle object row journal) := by
  obtain ⟨before, after, hsplit, hseparate⟩ := halone
  unfold synchronize
  rw [hsplit, List.foldl_append, List.foldl_cons]
  have hearlier : ∀ a ∈ before, a.Separate b := fun a ha =>
    hseparate a (List.mem_append_left _ ha)
  have hbefore := Pass.spares_foldl direction handle hearlier
    { object, row, report := { entities := 1 }, journal }
  generalize before.foldl _ _ = p at hbefore ⊢
  have hvisit : p.visit direction handle b = p := by
    unfold Pass.visit
    split
    · rename_i hcell
      have hproperty : p.object.get? b.capability = none := by
        rw [hbefore.property]
        refine hnone.resolve_right fun habsent => ?_
        rw [hbefore.cell, habsent] at hcell
        cases hcell
      simp [HostObject.exposes, hproperty]
    · rfl
  rw [hvisit]
  have hall := hbefore.trans (Pass.spares_foldl direction handle
    (fun a ha => hseparate a (List.mem_append_right _ ha)) p)
  exact ⟨hall.property, hall.cell⟩

/-- The component gets its first value from the property of the binding. -/
theorem cell?_materialize (handle : Handle) (object : PropertyBag) (row : Row) :
    (t.materialize handle object row).row.cell? b.component =
      (row.cell? b.component).or ((object.get? b.capability).map Cell.agreed) := by
  obtain ⟨before, after, hsplit, hseparate⟩ := halone
  unfold materialize
  rw [hsplit, List.foldl_append, List.foldl_cons]
  have hearlier : ∀ a ∈ before, a.Separate b := fun a ha =>
    hseparate a (List.mem_append_left _ ha)
  obtain ⟨hobject, hcell⟩ :=
    Materialized.foldl_visit_spares hearlier { object, row } handle
  generalize before.foldl _ _ = m at hobject hcell ⊢
  rw [(Materialized.foldl_visit_spares
    (fun a ha => hseparate a (List.mem_append_right _ ha)) _ handle).2, m.cell?_visit, if_pos rfl,
    hobject, hcell]

end Table

end Tether
