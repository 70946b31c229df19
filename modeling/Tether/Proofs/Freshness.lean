import Mathlib.Data.List.Pairwise
import Tether.Proofs.Concord
import Tether.Proofs.Materialization

/-!
# Freshness

Binding a host object fills a row : a component gets the value of the first of its bindings whose
capability the object exposes (`Table.cell?_materialized`). Synchronizing goes by each binding in
turn. The two fit together as far as the capabilities that feed one component have values that
agree (`Table.Concordant`). Where each component has a binding of its own this only asks that
nothing is something else than a number (`Table.concordant_of_apart`).

Then, and only then, synchronizing a freshly bound entity has nothing to report, and it leaves every
component and every property as it is (`Coordinator.fresh_run`).
-/

namespace Tether

/-! ## First values -/

/-- The value of the first binding of a component whose capability the object exposes. -/
def Table.firstValue? (t : Table) (bag : PropertyBag) (id : ComponentId) : Option Value :=
  t.bindings.findSome? fun b => if b.component = id then bag.get? b.capability else none

/-- A new row has the first value of each component, which is also its base. -/
theorem Table.cell?_materialized (t : Table) (bag : PropertyBag) (handle : Handle)
    (id : ComponentId) :
    (t.materialize handle bag { handle }).row.cell? id =
      (t.firstValue? bag id).map Cell.agreed := by
  rw [(t.fills handle bag.steadfast).cell, firstValue?, Binding.firstGift?]
  simp only [Binding.gift?_propertyBag]

/-! ## Tables whose capabilities agree -/

/-- Capabilities that feed one component have values that agree. -/
def Table.Concordant (t : Table) (bag : PropertyBag) : Prop :=
  ∀ a ∈ t.bindings, ∀ b ∈ t.bindings, a.component = b.component →
    ∀ x y, bag.get? a.capability = some x → bag.get? b.capability = some y → x.agrees y = true

/-- Where each binding has a component of its own, values must only agree with themselves. -/
theorem Table.concordant_of_apart {t : Table} {bag : PropertyBag}
    (hs : t.bindings.Pairwise fun a b => a.component ≠ b.component)
    (hnumbers : ∀ c v, bag.get? c = some v → v.hasNaN = false) : t.Concordant bag := by
  intro a ha b hb hcomponent x y hx hy
  have : Std.Symm fun a b : Binding => a.component ≠ b.component := ⟨fun _ _ => Ne.symm⟩
  obtain rfl : a = b := Classical.byContradiction fun hne => hs.forall ha hb hne hcomponent
  obtain rfl := Option.some.inj (hx.symm.trans hy)
  exact x.agrees_self_iff.mpr (hnumbers _ x hx)

section Fresh

variable (t : Table) (bag : PropertyBag) (handle : Handle) (journal : Journal)

/-- A component of a new row has the value of one of its bindings. -/
theorem Table.exists_of_firstValue? {id : ComponentId} {w : Value}
    (h : t.firstValue? bag id = some w) :
    ∃ a ∈ t.bindings, a.component = id ∧ bag.get? a.capability = some w := by
  obtain ⟨a, ha, hvalue⟩ := List.exists_of_findSome?_eq_some h
  split at hvalue
  · exact ⟨a, ha, ‹_›, hvalue⟩
  · cases hvalue

/-- A component of a new row is there if a binding of it finds its capability. -/
theorem Table.firstValue?_of_mem {b : Binding} (hb : b ∈ t.bindings) {x : Value}
    (hx : bag.get? b.capability = some x) : ∃ w, t.firstValue? bag b.component = some w := by
  refine Option.isSome_iff_exists.mp (List.findSome?_isSome_iff.mpr ⟨b, hb, ?_⟩)
  rw [if_pos rfl, hx]
  rfl

/-- The first pass over a new row has nothing to report exactly if the capabilities agree, and then
nothing moves. -/
theorem Table.fresh_watch :
    let row := (t.materialize handle bag { handle }).row
    let z := t.watch .bidirectional handle bag row journal
    (z.report = { entities := 1 } ↔ t.Concordant bag) ∧
      (t.Concordant bag → Pass.Unmoved
        { object := ⟨bag, []⟩, row, report := { entities := 1 }, journal } z) := by
  intro row z
  have hcell (id : ComponentId) : row.cell? id = (t.firstValue? bag id).map Cell.agreed :=
    t.cell?_materialized bag handle id
  have hunmoved (h : t.Concordant bag) : Pass.Unmoved
      { object := ⟨bag, []⟩, row, report := { entities := 1 }, journal } z := by
    refine Pass.unmoved_foldl (s := PropertyBag.readings) .bidirectional handle trivial
      fun b hb => ?_
    cases hx : bag.get? b.capability with
    | none =>
      refine .inl (.inr (.inl ?_))
      show (bag.get? b.capability).isSome = false
      rw [hx]
      rfl
    | some x =>
      obtain ⟨w, hw⟩ := t.firstValue?_of_mem bag hb hx
      obtain ⟨a, ha, hcomponent, hvalue⟩ := t.exists_of_firstValue? bag hw
      exact .inr ⟨x, Cell.agreed w, hx, h b hb a ha hcomponent.symm x w hx hvalue, by
        rw [hcell, hw]
        rfl⟩
  refine ⟨⟨fun hreport a ha b hb hcomponent x y hx hy => ?_, fun h => (hunmoved h).report⟩,
    hunmoved⟩
  have hsilent : ∀ b ∈ t.bindings, ∀ x cell, b.direction.restrict .bidirectional ≠ none →
      bag.get? b.capability = some x → row.cell? b.component = some cell →
        x.agrees cell.value = true :=
    Pass.agrees_of_silent PropertyBag.readings .bidirectional handle
      (p := { object := ⟨bag, []⟩, row, report := { entities := 1 }, journal }) trivial hreport
  obtain ⟨w, hw⟩ := t.firstValue?_of_mem bag ha hx
  have hwcell : row.cell? a.component = some (Cell.agreed w) := by
    rw [hcell, hw]
    rfl
  have hdirection (d : Direction) : d.restrict .bidirectional ≠ none := by
    rw [d.restrict_bidirectional]
    simp
  have hxw := hsilent a ha x _ (hdirection _) hx hwcell
  have hyw := hsilent b hb y _ (hdirection _) hy (hcomponent ▸ hwcell)
  exact Value.agrees_trans hxw ((Value.agrees_comm _ _).trans hyw)

end Fresh

/-! ## Newly bound entities -/

namespace Coordinator

variable {σ : Type} {c : Coordinator PropertyBag σ} {host : HostRef} {bag : PropertyBag}

/-- What synchronizing an entity does whose host object is owned : a pass over the object and the
row. -/
theorem synchronize_of_owned {h : Handle} {row : Row} (hpair : c.pair? h = some (host, bag, row))
    (hcell : c.hosts.cells.get? host.address = some ⟨bag, true⟩) (direction : Direction) :
    let p := c.table.synchronize direction h bag row {}
    ∃ e, c.synchronize h direction = (.ok p.report, e) ∧
      (∀ j id, e.world.cell? j id = if j = h then p.row.cell? id else c.world.cell? j id) ∧
      ∀ a, e.hosts.cells.get? a =
        if a = host.address then some ⟨p.object, true⟩ else c.hosts.cells.get? a := by
  intro p
  have hrow := (pair?_eq_some_iff.mp hpair).2.2
  have hhandle : p.row.handle = h :=
    (c.table.alike_synchronize direction h bag row {}).handle.trans
      (World.row?_eq_some_iff.mp hrow).2
  obtain ⟨k, hvisit⟩ := c.visit_eq direction {} h
  rw [pass?_eq_map, hpair] at hvisit
  dsimp only [Option.map_some] at hvisit
  rw [SyncReport.empty_merge] at hvisit
  obtain ⟨j, is, hreports⟩ := foldl_reportSynchronization p.report.failures
    ({ c with world := c.world.store p.row, journal := k }.setHosts (c.hosts.putBack host p.object))
  refine ⟨_, by rw [synchronize_of_pair? hpair, hvisit], fun j id => ?_, fun a => ?_⟩
  · rw [hreports]
    show (c.world.store p.row).cell? j id = _
    rw [World.cell?, World.store, hhandle, World.row?_modify _ fun _ _ => hhandle]
    split
    · rw [hrow]
      rfl
    · rfl
  · rw [hreports]
    show (c.hosts.putBack host p.object).cells.get? a = _
    rw [Hosts.get?_putBack]
    split
    · rename_i ha
      rw [ha, hcell]
      rfl
    · rfl

section Attached

variable (hp : c.population.Consistent) (hcap : c.registry.allocator.alloc.2.capacity ≤ 2 ^ 32)

include hp hcap

/-- A new entity has its host object and its row. -/
theorem pair?_attached (hcell : c.hosts.cells.get? host.address = some ⟨bag, true⟩) :
    (c.attached host bag).pair? c.registry.allocator.alloc.1 =
      some (host, bag, (c.table.materialize c.registry.allocator.alloc.1 bag
        { handle := c.registry.allocator.alloc.1 }).row) := by
  refine pair?_eq_some_iff.mpr ⟨resolve?_attached, ?_, row?_attached hp hcap⟩
  rw [Hosts.find?, get?_hosts_attached_of_owned hcell, hcell]
  rfl

end Attached

/-- Binding a host object that is owned and has no entity comes to a new entity. -/
theorem bind_of_owned_bag (hcell : c.hosts.cells.get? host.address = some ⟨bag, true⟩)
    (hfresh : c.registry.handleOf? host.id = none) :
    c.bind host = (.ok c.registry.allocator.alloc.1, c.attached host bag) := by
  have hfind : c.hosts.find? host = some bag := by
    rw [Hosts.find?, hcell]
    rfl
  have halive : (c.attached host bag).hosts.alive host = true := by
    rw [Hosts.alive, get?_hosts_attached_of_owned hcell, hcell]
    rfl
  simp only [bind, attach_of_fresh hfind hfresh, halive, ↓reduceIte]

/-- A freshly bound entity is in sync exactly if the capabilities that feed one component have
values that agree : binding gives an entity, and synchronizing it next has then nothing to report
and leaves every component and every property as it is. Where each binding has a component of its
own, values that are numbers are enough. -/
theorem fresh_run (table : Table) (settings : Settings) (surroundings : Surroundings PropertyBag σ)
    (journal : Journal) (as : List (Action PropertyBag σ)) :
    let c := (withTable table settings surroundings journal).run as
    c.registry.allocator.alloc.2.capacity ≤ 2 ^ 32 →
    c.hosts.cells.get? host.address = some ⟨bag, true⟩ → c.registry.handleOf? host.id = none →
    (∃ h d report e, c.bind host = (.ok h, d) ∧ d.synchronize h .bidirectional = (.ok report, e) ∧
      (report = { entities := 1 } ↔ c.table.Concordant bag) ∧
      (c.table.Concordant bag →
        (∀ j id, Option.Rel Pass.Rebased (d.world.cell? j id) (e.world.cell? j id)) ∧
        (∀ a, e.hosts.cells.get? a = d.hosts.cells.get? a) ∧
        ∀ a, d.hosts.cells.get? a = c.hosts.cells.get? a)) ∧
    ((c.table.bindings.Pairwise fun a b => a.component ≠ b.component) →
      (∀ name v, bag.get? name = some v → v.hasNaN = false) → c.table.Concordant bag) := by
  intro c hcap hcell hfresh
  refine ⟨?_, Table.concordant_of_apart⟩
  have hp : c.population.Consistent := consistent_run table settings surroundings journal as
    (Nat.le_trans (Allocator.capacity_le_alloc _) hcap)
  have hkept := get?_hosts_attached_of_owned (c := c) hcell
  have hpair := pair?_attached hp hcap hcell
  have hcell' : (c.attached host bag).hosts.cells.get? host.address = some ⟨bag, true⟩ :=
    (hkept _).trans hcell
  obtain ⟨e, hsync, hworld, hhosts⟩ := synchronize_of_owned hpair hcell' .bidirectional
  obtain ⟨hreport, hunmoved⟩ := c.table.fresh_watch bag c.registry.allocator.alloc.1 {}
  rw [c.table_attached host bag, ← Table.unwatched_watch] at hsync hworld hhosts
  refine ⟨_, _, _, e, bind_of_owned_bag hcell hfresh, hsync, hreport, fun h => ⟨fun j id => ?_,
    fun a => ?_, hkept⟩⟩
  · rw [hworld]
    split
    · rename_i hj
      rw [hj, World.cell?, (pair?_eq_some_iff.mp hpair).2.2]
      exact (hunmoved h).cell id
    · exact Pass.rel_rebased_refl _
  · rw [hhosts]
    split
    · rename_i ha
      obtain ⟨as, hobject, hreads⟩ := (hunmoved h).object
      rw [ha, hcell']
      show some (HostCell.mk (Watched.object _) true) = _
      rw [hobject]
      exact congrArg (fun o => some (HostCell.mk o true)) (PropertyBag.after_reads hreads)
    · rfl

/-- A coordinator with one host object, and two capabilities that feed one component. -/
def positioned (bag : PropertyBag) : Coordinator PropertyBag Unit :=
  withTable
    ((({} : Table).register ⟨"transform", "Position", .hostToEcs, .hostWins⟩).2.register
      ⟨"location", "Position", .hostToEcs, .hostWins⟩).2
    {} ⟨(({} : Hosts PropertyBag).create ⟨7⟩ bag true).2, ()⟩ {}

/-- Two capabilities with one value. -/
theorem fresh_run_positioned :
    let bag : PropertyBag := ⟨[("transform", .int 1), ("location", .int 1)]⟩
    let c := positioned bag
    c.registry.allocator.alloc.2.capacity ≤ 2 ^ 32 ∧
      c.hosts.cells.get? 0 = some ⟨bag, true⟩ ∧ c.registry.handleOf? ⟨7⟩ = none ∧
      ∃ h d e, c.bind ⟨⟨7⟩, 0⟩ = (.ok h, d) ∧
        d.synchronize h .bidirectional = (.ok { entities := 1 }, e) ∧
        ∀ j id, Option.Rel Pass.Rebased (d.world.cell? j id) (e.world.cell? j id) := by
  intro bag c
  have hcap : c.registry.allocator.alloc.2.capacity ≤ 2 ^ 32 := by decide
  have hcell : c.hosts.cells.get? 0 = some ⟨bag, true⟩ := rfl
  have hfresh : c.registry.handleOf? ⟨7⟩ = none := by decide
  have hconcordant : c.table.Concordant bag := by
    have hone : ∀ b ∈ c.table.bindings, bag.get? b.capability = some (.int 1) := by decide
    intro a ha b hb _ x y hx hy
    obtain rfl := Option.some.inj ((hone a ha).symm.trans hx)
    obtain rfl := Option.some.inj ((hone b hb).symm.trans hy)
    rfl
  obtain ⟨⟨h, d, report, e, hbind, hsync, hreport, hkept⟩, -⟩ :=
    @fresh_run _ ⟨⟨7⟩, 0⟩ bag c.table {} ⟨c.hosts, ()⟩ {} [] hcap hcell hfresh
  rw [hreport.mpr hconcordant] at hsync
  exact ⟨hcap, hcell, hfresh, h, d, e, hbind, hsync, (hkept hconcordant).1⟩

/-- Two capabilities with two values : the component is filled from the first one, and the second
one overwrites it in the pass that follows. -/
theorem fresh_positioned_apart :
    let bag : PropertyBag := ⟨[("transform", .int 1), ("location", .int 2)]⟩
    let d := ((positioned bag).bind ⟨⟨7⟩, 0⟩).2
    let e := (d.synchronize ⟨0, 0⟩ .bidirectional).2
    (∀ p ∈ bag.properties, p.2.hasNaN = false) ∧
      ((positioned bag).bind ⟨⟨7⟩, 0⟩).1.toOption = some ⟨0, 0⟩ ∧
      (d.synchronize ⟨0, 0⟩ .bidirectional).1.toOption = some { entities := 1, toEcs := 1 } ∧
      d.world.value? ⟨0, 0⟩ ⟨0⟩ = some (.int 1) ∧ e.world.value? ⟨0, 0⟩ ⟨0⟩ = some (.int 2) := by
  intro bag d e
  exact ⟨by decide, by decide, by decide, by decide, by decide⟩

end Coordinator

end Tether
