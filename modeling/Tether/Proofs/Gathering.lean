import Tether.Proofs.Actors
import Tether.Proofs.Reconciliation

/-!
# Gathering

Actors may be bound directly, before the first frame. Whoever has all the properties that the
bindings ask for gets an entity with all the components, so both sides of every binding are there
(`Coordinator.Equipped`) : binding another host object leaves those alone that are bound
(`Coordinator.equipped_attached`), and `Stage.gathered_bindAll` says what binding a whole list comes
to.
-/

set_option linter.unusedSectionVars false

namespace Tether

/-- Where no two bindings share a capability or a component, each is separate from those before and
after it. -/
theorem Binding.separate_of_split {before after : List Binding} {b : Binding}
    (hs : (before ++ b :: after).Pairwise Binding.Separate) :
    ∀ a ∈ before ++ after, a.Separate b := by
  have hmiddle := (List.pairwise_middle fun h => ⟨h.1.symm, h.2.symm⟩).mp hs
  intro a ha
  obtain ⟨hcapability, hcomponent⟩ := (List.pairwise_cons.mp hmiddle).1 a ha
  exact ⟨hcapability.symm, hcomponent.symm⟩

/-- Where no two bindings share a capability or a component, each stands alone. -/
theorem Binding.alone_of_mem {bs : List Binding} (hs : bs.Pairwise Binding.Separate) {b : Binding}
    (hb : b ∈ bs) : b.Alone bs := by
  obtain ⟨before, after, rfl⟩ := List.append_of_mem hb
  exact ⟨before, after, rfl, separate_of_split hs⟩

/-- Reading a bag leaves it as it is. -/
theorem Table.object_materialize (t : Table) (h : Handle) (object : PropertyBag) (row : Row) :
    (t.materialize h object row).object = object := by
  have hall (bs : List Binding) (m : Materialized PropertyBag) :
      (bs.foldl (Materialized.visit h) m).object = m.object := by
    induction bs generalizing m with
    | nil => rfl
    | cons b bs ih => exact (ih _).trans (m.object_visit h b)
  exact hall t.bindings { object, row }

namespace Coordinator

variable {σ : Type} {c d : Coordinator PropertyBag σ}

/-- Every bound entity has both sides of every binding. -/
def Equipped (c : Coordinator PropertyBag σ) : Prop :=
  ∀ h ref, c.registry.resolve? h = some ref → ∀ b ∈ c.table.bindings, ∃ x cell, c.Holds b h x cell

/-! ## Binding one more -/

/-- Binding an owned bag changes no bag. -/
theorem get?_hosts_attached_of_owned {ref : HostRef} {object : PropertyBag}
    (hcell : c.hosts.cells.get? ref.address = some ⟨object, true⟩) (a : Nat) :
    (c.attached ref object).hosts.cells.get? a = c.hosts.cells.get? a := by
  simp only [attached, hosts_complete, fill]
  split
  · rfl
  · show ((c.opening ref).hosts.putBack ref _).cells.get? a = _
    rw [Table.object_materialize]
    show (c.hosts.putBack ref object).cells.get? a = _
    rw [Hosts.get?_putBack]
    split
    · rename_i ha
      rw [ha, hcell, Option.bind_some, if_pos (by simp)]
    · rfl

section Bind

variable (howned : c.hosts.AllOwned) {ref : HostRef} {object : PropertyBag}
  (ho : c.hosts.find? ref = some object)
include howned ho

/-- Binding changes no bag. -/
theorem get?_hosts_attached (a : Nat) :
    (c.attached ref object).hosts.cells.get? a = c.hosts.cells.get? a := by
  obtain ⟨⟨object', owned⟩, hcell, rfl⟩ := Option.map_eq_some_iff.mp ho
  obtain rfl : owned = true := howned _ _ hcell
  exact get?_hosts_attached_of_owned hcell a

variable (hp : c.population.Consistent) (hf : c.registry.handleOf? ref.id = none)
  (hcap : c.registry.allocator.alloc.2.capacity ≤ 2 ^ 32)
include hp hf hcap

omit howned ho hf in
/-- A new entity has the components for which its host object has a property. -/
theorem cell?_attached_new {b : Binding} (halone : b.Alone c.table.bindings) :
    (c.attached ref object).world.cell? c.registry.allocator.alloc.1 b.component =
      (object.get? b.capability).map Cell.agreed := by
  have htracks : Tracks b c.registry.allocator.alloc.1 c.table.bindings (c.opening ref) none :=
    .none_of_bindings rfl
  have hrow : (c.opening ref).world.row? c.registry.allocator.alloc.1 =
      some { handle := c.registry.allocator.alloc.1 } := by
    show (c.world.spawn _).row? _ = _
    rw [World.row?_spawn, if_pos ⟨rfl, (slot_free hp hcap).2⟩]
  rw [attached, world_complete, cell?_fill htracks halone, if_pos rfl, hrow]
  rfl

theorem equipped_attached (hs : c.table.bindings.Pairwise Binding.Separate) (h : c.Equipped)
    (hproperties : ∀ b ∈ c.table.bindings, (object.get? b.capability).isSome = true) :
    (c.attached ref object).Equipped := by
  have hcap' : (c.attached ref object).population.capacity ≤ 2 ^ 32 := by
    rw [capacity_attached]
    exact hcap
  obtain ⟨cells, row, degraded, ha, -⟩ := attached_change object hp hf hcap'
  have hp' := ha.consistent hp hcap'
  have hfind : ∀ g, (c.attached ref object).registry.find? g = _ := ha.find?_eq hp hcap'
  have hhosts := get?_hosts_attached howned ho
  intro j host hj b hb
  rw [table_attached] at hb
  by_cases hnew : j = c.registry.allocator.alloc.1
  · subst hnew
    obtain ⟨x, hx⟩ := Option.isSome_iff_exists.mp (hproperties b hb)
    have hcell : (c.attached ref object).world.cell? c.registry.allocator.alloc.1 b.component =
        (object.get? b.capability).map Cell.agreed :=
      cell?_attached_new hp hcap (Binding.alone_of_mem hs hb)
    rw [hx] at hcell
    obtain ⟨r, hr, hvalue⟩ := Option.bind_eq_some_iff.mp hcell
    obtain rfl : ref = host := by
      rw [resolve?_eq hp', hfind, if_pos rfl] at hj
      exact Option.some.inj hj
    obtain ⟨cell, hget, rfl⟩ := Option.map_eq_some_iff.mp ho
    have howner := howned _ _ hget
    refine ⟨x, Cell.agreed x, ref, cell.object, r, pair?_eq_some_iff.mpr ⟨hj, ?_, hr⟩, ?_, hx,
      hvalue⟩
    · rw [Hosts.find?, hhosts, hget]
      rfl
    · rw [hhosts, hget, ← howner]
  · have hold : c.registry.resolve? j = some host := by
      rw [resolve?_eq hp', hfind, if_neg hnew] at hj
      rw [resolve?_eq hp]
      exact hj
    have hslot : j.slot ≠ c.registry.allocator.alloc.1.slot := by
      intro heq
      obtain ⟨r, hr⟩ := exists_row hp hold
      have hfree := (slot_free hp hcap).2
      rw [← heq, (World.row?_eq_some_iff.mp hr).1] at hfree
      cases hfree
    obtain ⟨x, cell, hh⟩ := h j host hold b hb
    refine ⟨x, cell, hh.congr (hj.trans hold.symm) ?_ fun _ _ => hhosts _⟩
    exact (ha.rows j.slot).trans (if_neg hslot)

end Bind

end Coordinator

namespace Stage

variable {c d e : Stage}

/-! ## Binding a whole list -/

/-- A listed host object exists and has all the properties that the bindings ask for. -/
def Suits (c : Stage) (ref : HostRef) : Prop :=
  ∃ object, c.hosts.find? ref = some object ∧
    ∀ b ∈ c.table.bindings, (object.get? b.capability).isSome = true

/-- From one stage to another the listed host objects were bound, and all entities kept both sides
of every binding. -/
structure Gathers (c : Stage) (refs : List HostRef) (d : Stage) : Prop where
  arrives : c.Arrives refs d
  structural : c.Structural d
  cells : ∀ a, d.hosts.cells.get? a = c.hosts.cells.get? a
  equipped : c.Equipped → d.Equipped

theorem Gathers.suits {refs : List HostRef} (h : c.Gathers refs d) {ref : HostRef}
    (hs : c.Suits ref) : d.Suits ref := by
  obtain ⟨object, ho, hall⟩ := hs
  refine ⟨object, ?_, h.structural.table.symm ▸ hall⟩
  rw [Hosts.find?, h.cells]
  exact ho

section Gather

variable (hp : c.population.Consistent) (howned : c.hosts.AllOwned)
  (hs : c.table.bindings.Pairwise Binding.Separate)
  (hcap : c.registry.allocator.capacity ≤ 2 ^ 32)
include hp howned hs hcap

theorem gathers_bind {ref : HostRef} (hroom : c.registry.size + 1 ≤ 2 ^ 32) (hsuits : c.Suits ref)
    (hf : c.registry.handleOf? ref.id = none) :
    (c.bind ref).1 = .ok c.registry.allocator.alloc.1 ∧ c.Gathers [ref] (c.bind ref).2 := by
  obtain ⟨object, ho, hall⟩ := hsuits
  obtain ⟨hanswer, harrives⟩ := Coordinator.arrives_bind hp howned hcap hroom
    (Coordinator.alive_iff.mpr ⟨object, ho⟩) hf
  have hle := Coordinator.capacity_alloc_le hp hcap
  have hstate : (c.bind ref).2 = c.attached ref object :=
    congrArg Prod.snd (Coordinator.bind_of_owned howned ho hf)
  refine ⟨hanswer, harrives, c.structural_bind ref, fun a => ?_, fun h => ?_⟩
  · rw [hstate]
    exact Coordinator.get?_hosts_attached howned ho a
  · rw [hstate]
    exact Coordinator.equipped_attached howned ho hp hf (by omega) hs h hall

/-- Host objects that are there and had no entity can be bound one after another. -/
theorem gathers_bindEach {refs : List HostRef} (hroom : c.registry.size + refs.length ≤ 2 ^ 32)
    (hsuits : ∀ ref ∈ refs, c.Suits ref) (hids : (refs.map HostRef.id).Nodup)
    (hfresh : ∀ ref ∈ refs, c.registry.handleOf? ref.id = none) :
    ∃ d, bindEach refs c = (.ok (), d) ∧ c.Gathers refs d := by
  induction refs generalizing c with
  | nil => exact ⟨c, rfl, .refl hp, .refl c, fun _ => rfl, id⟩
  | cons ref refs ih =>
    rw [List.length_cons] at hroom
    obtain ⟨hnot, hids⟩ := List.nodup_cons.mp hids
    obtain ⟨hanswer, hone⟩ := gathers_bind hp howned hs hcap (by omega)
      (hsuits ref List.mem_cons_self) (hfresh ref List.mem_cons_self)
    have hsize := hone.arrives.size
    have hcapacity := hone.arrives.capacity
    rw [List.length_singleton] at hsize
    have hothers : ∀ ref' ∈ refs, (c.bind ref).2.registry.handleOf? ref'.id = none := by
      intro ref' href'
      refine hone.arrives.handleOf?_eq_none hp (hfresh ref' (List.mem_cons_of_mem _ href'))
        fun hin => ?_
      obtain heq : ref'.id = ref.id := List.mem_singleton.mp hin
      exact hnot (heq ▸ List.mem_map_of_mem href')
    obtain ⟨d, heach, hrest⟩ := ih hone.arrives.consistent (hone.arrives.hosts.allOwned howned)
      (hone.structural.table.symm ▸ hs) (by omega) (by omega)
      (fun ref' href' => hone.suits (hsuits ref' (List.mem_cons_of_mem _ href'))) hids hothers
    refine ⟨d, ?_, hone.arrives.append hrest.arrives, hone.structural.trans hrest.structural,
      fun a => (hrest.cells a).trans (hone.cells a), hrest.equipped ∘ hone.equipped⟩
    have hbind : c.bind ref = (.ok c.registry.allocator.alloc.1, (c.bind ref).2) :=
      Prod.ext hanswer rfl
    rw [bindEach, hbind]
    exact heach

end Gather

/-- What it comes to that a list of host objects is bound and all signals of it are delivered. -/
structure Gathered (c : Stage) (refs : List HostRef) (d : Stage) : Prop where
  rest : d.AtRest
  houses : d.Houses refs
  equipped : d.Equipped
  hosts : c.hosts.Alike d.hosts
  cells : ∀ a, d.hosts.cells.get? a = c.hosts.cells.get? a
  table : d.table = c.table
  waiting : d.waiting = c.waiting
  time : d.frame.time = c.frame.time
  capacity : d.registry.allocator.capacity ≤ max c.registry.allocator.capacity refs.length

theorem gathered_bindAll {refs : List HostRef} (h : c.AtRest) (hnobody : c.Houses [])
    (hs : c.table.bindings.Pairwise Binding.Separate)
    (hcap : c.registry.allocator.capacity ≤ 2 ^ 32) (hroom : refs.length ≤ 2 ^ 32)
    (hsuits : ∀ ref ∈ refs, c.Suits ref) (hids : (refs.map HostRef.id).Nodup) :
    ∃ d, bindAll refs c = (.ok (), d) ∧ c.Gathered refs d := by
  have hsize : c.registry.size = 0 := hnobody.size_eq h.consistent List.nodup_nil
  have hfresh : ∀ ref ∈ refs, c.registry.handleOf? ref.id = none := fun ref _ =>
    (Coordinator.handleOf?_eq_none_iff h.consistent).mpr fun j x hx _ =>
      List.not_mem_nil ((hnobody x).mp ⟨j, hx⟩)
  obtain ⟨d, heach, hall⟩ := gathers_bindEach h.consistent h.owned hs hcap (by omega) hsuits hids
    hfresh
  have hboard : d.switchboard = c.switchboard := hall.structural.switchboard
  have hdelayed : d.named.delayed = [] :=
    (congrArg NamedSignals.delayed hall.structural.named).trans h.delayed
  have hcontent : d.Content := h.content hboard hall.arrives.consistent fun s hin hkind => by
    obtain ⟨ss, hout, hss⟩ := hall.arrives.outbox
    rw [hout, h.outbox, List.nil_append] at hin
    exact hss s hin hkind
  obtain ⟨journal, hdispatch⟩ := Coordinator.dispatch_of_content hdelayed hcontent
  have hqueue : d.queue = c.queue := hall.structural.queue
  have hframe : d.frame = c.frame := hall.structural.frame
  have hbind : bindAll refs c = (.ok (), d.dispatch.2) := by
    simp only [bindAll, heach, hdispatch]
  rw [hdispatch] at hbind
  refine ⟨_, hbind, ?_, fun ref => ?_, ?_,
    hall.arrives.hosts, hall.cells, hall.structural.table, ?_, ?_, ?_⟩
  · exact ⟨hall.arrives.consistent, hall.arrives.hosts.allOwned h.owned, hqueue ▸ h.queue, rfl, rfl,
      hdelayed, hboard ▸ h.idle, hboard ▸ h.kept, hboard ▸ h.lenient⟩
  · rw [hall.arrives.bound ref, hnobody ref]
    simp
  · exact hall.equipped fun j ref hj => absurd ((hnobody ref).mp ⟨j, hj⟩) List.not_mem_nil
  · simp only [Coordinator.waiting, hqueue]
  · show d.frame.next.time = _
    rw [hframe]
    rfl
  · have hcapacity := hall.arrives.capacity
    rw [hall.arrives.size, hsize, Nat.zero_add] at hcapacity
    exact hcapacity

end Stage

end Tether
