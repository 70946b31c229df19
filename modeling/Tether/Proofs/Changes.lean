import Tether.Proofs.Runs

/-!
# Operations as changes

Each operation on one entity is followed once : it either leaves the population alike and raises
nothing (`Coordinator.Calm`), or it makes one elementary change and puts what that raises into
the outbox (`Coordinator.Moves`). Filling a new row from a host object and passes between a row
and its host object are followed binding by binding.

What an operation does is said from every consistent population and as long as slot numbers
last (`Population.Evolves`), so that such statements can be joined one after another.
-/

set_option linter.unusedSectionVars false

namespace Tether

/-! ## Populations that evolve -/

namespace Population

/-- From one population to another slots only become more, and, as long as slot numbers last, a
consistent one gets to the other by a series of changes that raises the given signals. -/
structure Evolves (p : Population) (es : List Raised) (q : Population) : Prop where
  capacity_le : p.capacity ≤ q.capacity
  trace : q.capacity ≤ 2 ^ 32 → p.Consistent → Trace p es q

theorem Evolves.refl (p : Population) : Evolves p [] p :=
  ⟨Nat.le_refl _, fun _ _ => .nil p⟩

theorem Evolves.append {p q r : Population} {es fs : List Raised} (h : Evolves p es q)
    (h' : Evolves q fs r) : Evolves p (es ++ fs) r := by
  refine ⟨Nat.le_trans h.capacity_le h'.capacity_le, fun hcap hp => ?_⟩
  have hmid := Nat.le_trans h'.capacity_le hcap
  have ht := h.trace hmid hp
  exact ht.append (h'.trace hcap (ht.consistent hmid hp))

theorem Evolves.of_alike {p q : Population} (h : Alike p q) : Evolves p [] q :=
  ⟨(Change.quiet h).capacity_le, fun _ _ => .single (.quiet h)⟩

/-- The row of an entity may be replaced by one with the same components. -/
theorem alike_modify (r : Registry) {w : World} {h : Handle} {f : Row → Row}
    (hf : ∀ row, w.row? h = some row → row.Alike (f row)) :
    Alike ⟨r, w⟩ ⟨r, w.modify h f⟩ := by
  refine ⟨rfl, rfl, fun _ => rfl, rfl, fun i => ?_, w.size_rows_modify h f, w.size_modify h f⟩
  show Option.Rel Row.Alike (w.rows.get? i) ((w.modify h f).rows.get? i)
  rw [World.get?_rows_modify]
  split
  · rename_i hi
    obtain ⟨row, hrow⟩ := Option.isSome_iff_exists.mp hi.2
    rw [hi.1, (World.row?_eq_some_iff.mp hrow).1]
    exact .some (hf row hrow)
  · exact (Alike.refl ⟨r, w⟩).rows i

/-- The row of a bound entity may be replaced by any other row of it. -/
theorem reshaped_modify {r : Registry} {w : World} {h : Handle} {row : Row} {f : Row → Row}
    (hb : r.isBound h = true) (hrow : w.row? h = some row) (hf : (f row).handle = row.handle)
    (ha : row.Ascending → (f row).Ascending) :
    Reshaped ⟨r, w⟩ h row (f row) ⟨r, w.modify h f⟩ := by
  obtain ⟨hget, hhandle⟩ := World.row?_eq_some_iff.mp hrow
  refine ⟨rfl, hb, hrow, hf.trans hhandle, ha, fun i => ?_, w.size_rows_modify h f,
    w.size_modify h f⟩
  show (w.modify h f).rows.get? i = _
  rw [World.get?_rows_modify, hrow]
  simp only [Option.isSome_some, and_true]
  split
  · rename_i hi
    rw [hi, hget, Option.map_some]
  · rfl

/-- Flagging an entity changes no binding. -/
theorem alike_markDegraded (r : Registry) (w : World) (h : Handle) :
    Alike ⟨r, w⟩ ⟨r.markDegraded h, w⟩ := by
  refine ⟨r.allocator_markDegraded h, r.byHost_markDegraded h, fun i => ?_,
    r.size_entries_markDegraded h, (Alike.refl ⟨r, w⟩).rows, rfl, rfl⟩
  show ((r.markDegraded h).entries.get? i).map Entry.binding = _
  rw [Registry.get?_entries_markDegraded]
  split
  · rw [Option.map_map]
    rfl
  · rfl

end Population

/-! ## Passes over a row -/

variable {ο σ : Type} [HostObject ο]

theorem Pass.alike_agree (p : Pass ο) (id : ComponentId) (base : Value) :
    p.row.Alike (p.agree id base).row := by
  unfold agree
  cases hc : p.row.cell? id with
  | none => exact Row.Alike.refl _
  | some cell => exact Row.alike_put (by simp [Row.contains, hc]) _

theorem Pass.alike_pull (p : Pass ο) (flow : Direction) {id : ComponentId} {cell : Cell}
    (hc : p.row.cell? id = some cell) (target : Value) :
    p.row.Alike (p.pull flow id cell target).2.row := by
  unfold pull
  split
  · exact Row.Alike.refl _
  · split
    · exact Row.alike_put (by simp [Row.contains, hc]) _
    · exact Row.Alike.refl _

theorem Pass.row_send (p : Pass ο) (flow : Direction) (handle : Handle)
    (capability : Capability) (hostValue target : Value) :
    (p.send flow handle capability hostValue target).2.row = p.row := by
  unfold send
  split
  · rfl
  · split
    · split <;> rfl
    · rfl

theorem Pass.alike_settle (p : Pass ο) (flow : Direction) (handle : Handle) (b : Binding)
    (hostValue : Value) {cell : Cell} (hc : p.row.cell? b.component = some cell) :
    p.row.Alike (p.settle flow handle b hostValue cell).row := by
  unfold settle
  simp only
  generalize hq : Pass.mk p.object p.row _ _ = q
  have hrow : q.row = p.row := by rw [← hq]
  have hpull := q.alike_pull flow (hrow ▸ hc) (target b hostValue cell)
  have hsend := (q.pull flow b.component cell (target b hostValue cell)).2.row_send flow handle
    b.capability hostValue (target b hostValue cell)
  rw [hrow] at hpull
  split
  · refine hpull.trans ?_
    rw [← hsend]
    exact alike_agree _ _ _
  · rw [hsend]
    exact hpull

theorem Pass.alike_visit (direction : Direction) (handle : Handle) (p : Pass ο) (b : Binding) :
    p.row.Alike (p.visit direction handle b).row := by
  unfold visit
  split
  · rename_i hc
    split
    · split
      · exact Row.Alike.refl _
      · rename_i object _
        split
        · exact alike_agree { p with object } _ _
        · exact alike_settle { p with object } _ _ _ _ hc
    · exact Row.Alike.refl _
  · exact Row.Alike.refl _

/-- A pass changes values only. -/
theorem Table.alike_synchronize (t : Table) (direction : Direction) (handle : Handle)
    (object : ο) (row : Row) (journal : Journal) :
    row.Alike (t.synchronize direction handle object row journal).row := by
  have key : ∀ (bs : List Binding) (p : Pass ο),
      p.row.Alike (bs.foldl (Pass.visit direction handle) p).row := by
    intro bs
    induction bs with
    | nil => exact fun p => Row.Alike.refl _
    | cons b bs ih => exact fun p => (p.alike_visit direction handle b).trans (ih _)
  exact key t.bindings { object, row, report := { entities := 1 }, journal }

/-! ## Filling a new row -/

namespace Materialized

/-- The row holds exactly the listed components, on whose values both sides agree, and the
components were filled in the order of the list. -/
structure Filled (h : Handle) (m : Materialized ο) (cells : List (ComponentId × Value)) :
    Prop where
  handle : m.row.handle = h
  ascending : m.row.Ascending
  components : m.components = cells.map Prod.fst
  distinct : (cells.map Prod.fst).Nodup
  cells : ∀ id cell, m.row.cell? id = some cell ↔ ∃ v, (id, v) ∈ cells ∧ cell = Cell.agreed v

theorem Filled.mem_of_contains {h : Handle} {m : Materialized ο}
    {cells : List (ComponentId × Value)} (hm : m.Filled h cells) {id : ComponentId} :
    m.row.contains id = true ↔ id ∈ cells.map Prod.fst := by
  simp only [Row.contains, Option.isSome_iff_exists, hm.cells, List.mem_map]
  constructor
  · rintro ⟨_, v, hv, rfl⟩
    exact ⟨(id, v), hv, rfl⟩
  · rintro ⟨⟨_, v⟩, hv, rfl⟩
    exact ⟨_, v, hv, rfl⟩

theorem Filled.visit {h : Handle} {m : Materialized ο} {cells : List (ComponentId × Value)}
    (hm : m.Filled h cells) (handle : Handle) (b : Binding) :
    ∃ more, (m.visit handle b).Filled h (cells ++ more) := by
  unfold Materialized.visit
  split
  · exact ⟨[], by simpa using hm⟩
  · rename_i hnew
    simp only [Bool.or_eq_true, Bool.not_eq_true', not_or, Bool.not_eq_false] at hnew
    have hnot : b.component ∉ cells.map Prod.fst := fun hin =>
      hnew.2 (hm.mem_of_contains.mpr hin)
    split
    · rename_i value object _
      refine ⟨[(b.component, value)], hm.handle, hm.ascending.put _ _, ?_, ?_, fun id cell => ?_⟩
      · simp [hm.components]
      · rw [List.map_append, List.nodup_append]
        refine ⟨hm.distinct, by simp, fun i hi j hj heq => ?_⟩
        rw [List.map_singleton, List.mem_singleton] at hj
        rw [heq, hj] at hi
        exact hnot hi
      · rw [Row.cell?_insert]
        split
        · rename_i hid
          subst hid
          constructor
          · intro hc
            exact ⟨value, by simp, (Option.some.inj hc).symm⟩
          · rintro ⟨v, hv, rfl⟩
            rcases List.mem_append.mp hv with hv | hv
            · exact absurd (List.mem_map_of_mem hv) hnot
            · rw [(Prod.mk.inj (List.mem_singleton.mp hv)).2]
        · rename_i hid
          rw [hm.cells]
          simp [hid]
    · exact ⟨[], by simpa using ⟨hm.handle, hm.ascending, hm.components, hm.distinct, hm.cells⟩⟩

end Materialized

/-- Materializing into an empty row fills it. -/
theorem Table.filled_materialize (t : Table) (h : Handle) (object : ο) :
    ∃ cells, (t.materialize h object { handle := h }).Filled h cells := by
  have key : ∀ (bs : List Binding) (m : Materialized ο) (cells), m.Filled h cells →
      ∃ cells', (bs.foldl (Materialized.visit h) m).Filled h cells' := by
    intro bs
    induction bs with
    | nil => exact fun m cells hm => ⟨cells, hm⟩
    | cons b bs ih =>
      intro m cells hm
      obtain ⟨more, hmore⟩ := hm.visit h b
      exact ih _ _ hmore
  refine key t.bindings { object, row := { handle := h } } [] ?_
  exact ⟨rfl, Row.ascending_empty h, rfl, List.nodup_nil, by simp [Row.cell?, Row.lookup]⟩

/-! ## Calm operations -/

namespace Coordinator

/-- Nothing structural happens : the population stays alike, and the outbox as it is. -/
structure Calm (c d : Coordinator ο σ) : Prop where
  alike : Population.Alike c.population d.population
  outbox : d.outbox = c.outbox

theorem Calm.refl (c : Coordinator ο σ) : c.Calm c := ⟨.refl _, rfl⟩

theorem Calm.trans {c d e : Coordinator ο σ} (h : c.Calm d) (h' : d.Calm e) : c.Calm e :=
  ⟨h.alike.trans h'.alike, h'.outbox.trans h.outbox⟩

/-- An operation that touches neither registry nor world nor outbox is calm. -/
theorem Calm.of_eq {c d : Coordinator ο σ} (hr : d.registry = c.registry)
    (hw : d.world = c.world) (ho : d.outbox = c.outbox) : c.Calm d := by
  refine ⟨?_, ho⟩
  rw [show d.population = c.population by rw [population, population, hr, hw]]
  exact .refl _

theorem Calm.foldl {α β : Type} {f : β × Coordinator ο σ → α → β × Coordinator ο σ}
    (hf : ∀ (x : β × Coordinator ο σ) a, x.2.Calm (f x a).2) (as : List α)
    (x : β × Coordinator ο σ) :
    x.2.Calm (as.foldl f x).2 := by
  induction as generalizing x with
  | nil => exact .refl _
  | cons a as ih => exact (hf x a).trans (ih _)

theorem raisedBetween_of_append {c d : Coordinator ο σ} {ss : List Signal}
    (h : d.outbox.toList = c.outbox.toList ++ ss) :
    c.raisedBetween d = c.population.raised d.population ss := by
  rw [raisedBetween, h, ← Array.length_toList, List.drop_left]
  rfl

@[simp] theorem raisedBetween_self (c : Coordinator ο σ) : c.raisedBetween c = [] := by
  simp [raisedBetween]

theorem Calm.raisedBetween_eq {c d : Coordinator ο σ} (h : c.Calm d) :
    c.raisedBetween d = [] := by
  simp [raisedBetween, h.outbox]

/-- From one state to another the population evolves, and what that raises is appended to the
outbox. -/
structure Moves (c : Coordinator ο σ) (es : List Raised) (d : Coordinator ο σ) : Prop where
  evolves : Population.Evolves c.population es d.population
  outbox : d.outbox.toList = c.outbox.toList ++ es.map Raised.signal

theorem Moves.refl (c : Coordinator ο σ) : c.Moves [] c := ⟨.refl _, by simp⟩

theorem Moves.append {c d e : Coordinator ο σ} {es fs : List Raised} (h : c.Moves es d)
    (h' : d.Moves fs e) : c.Moves (es ++ fs) e :=
  ⟨h.evolves.append h'.evolves, by rw [h'.outbox, h.outbox, List.map_append, List.append_assoc]⟩

theorem Calm.moves {c d : Coordinator ο σ} (h : c.Calm d) : c.Moves [] d :=
  ⟨.of_alike h.alike, by rw [h.outbox]; simp⟩

theorem Calm.moves_between {c d : Coordinator ο σ} (h : c.Calm d) :
    c.Moves (c.raisedBetween d) d := by
  rw [h.raisedBetween_eq]
  exact h.moves

/-- An operation that makes one change and puts what the change raises into the outbox. -/
theorem moves_of_change {c d : Coordinator ο σ}
    (hcap : c.population.capacity ≤ d.population.capacity)
    (hout : ∃ ss, d.outbox.toList = c.outbox.toList ++ ss)
    (h : d.population.capacity ≤ 2 ^ 32 → c.population.Consistent →
      ∃ ss, d.outbox.toList = c.outbox.toList ++ ss ∧
        Population.Change c.population ss d.population) :
    c.Moves (c.raisedBetween d) d := by
  refine ⟨⟨hcap, fun hle hp => ?_⟩, ?_⟩
  · obtain ⟨ss, hss, hchange⟩ := h hle hp
    rw [raisedBetween_of_append hss]
    exact .single hchange
  · obtain ⟨ss, hss⟩ := hout
    rw [raisedBetween_of_append hss, hss, Population.raised, List.map_map]
    exact congrArg _ (List.map_id _).symm

/-! ## Tearing down -/

/-- The state after an entity is torn down. -/
def tornDown (c : Coordinator ο σ) (e : Entry) : Coordinator ο σ :=
  ({ c with registry := c.registry.without e, world := c.world.despawn e.handle }.announce
    (.entityDestroying e.handle e.host.id
      (((c.world.row? e.handle).map Row.snapshot).getD []))).note (.unbound e.host.id e.handle)

theorem unbind_of_error {c : Coordinator ο σ} {h : Handle} {error : Error}
    (hb : c.registry.bound h = .error error) : c.unbind h = (.error error, c) := by
  simp [unbind, hb]

theorem unbind_of_bound {c : Coordinator ο σ} {h : Handle} {e : Entry}
    (hb : c.registry.bound h = .ok e) : c.unbind h = (.ok (), c.tornDown e) := by
  obtain ⟨hf, -⟩ := Registry.bound_eq_ok_iff.mp hb
  obtain ⟨hget, rfl⟩ := Registry.find?_eq_some_iff.mp hf
  -- the entry is still found under way
  have hfind : Registry.find? { c.registry with
      entries := c.registry.entries.modify e.handle.slot fun e => { e with state := .unbinding } }
      e.handle = some { e with state := .unbinding } := by
    simp [Registry.find?, Slots.get?_modify, hget]
  simp only [unbind, hb, Registry.setState_of_find? hf]
  simp only [announce, Registry.unbind, Registry.entry_eq_ok_iff.mpr hfind]
  rfl

theorem detached_tornDown {c : Coordinator ο σ} {h : Handle} {e : Entry}
    (hp : c.population.Consistent) (hb : c.registry.bound h = .ok e) :
    ∃ row, Population.Detached c.population e row (c.tornDown e).population ∧
      c.world.row? e.handle = some row := by
  obtain ⟨hf, -⟩ := Registry.bound_eq_ok_iff.mp hb
  obtain ⟨hget, rfl⟩ := Registry.find?_eq_some_iff.mp hf
  obtain ⟨row, hrow, hhandle⟩ := hp.rowAt?_of_entryAt? hget
  have hrow? : c.world.row? e.handle = some row := World.row?_eq_some_iff.mpr ⟨hrow, hhandle⟩
  have hworld : (c.tornDown e).world =
      { rows := c.world.rows.clear e.handle.slot, size := c.world.size - 1 } :=
    World.despawn_of_row? hrow?
  have hentries := Slots.size_clear_of_eq_some hget
  have hrows := Slots.size_clear_of_eq_some hrow
  have hmapped := Registry.size_erase_byHost (hp.mapped hget)
  have hbindings := hp.bindings
  have hfilled := hp.filled
  have hcounted := hp.counted
  simp only [population] at hbindings hfilled hcounted hmapped
  have hsize : (c.registry.without e).entries.size + 1 = c.registry.entries.size := by
    have hmod : (c.registry.entries.modify e.handle.slot fun e =>
        { e with state := .unbinding }).get? e.handle.slot =
          some { e with state := .unbinding } := by
      simp [Slots.get?_modify, hget]
    simpa [Registry.without] using Slots.size_clear_of_eq_some hmod
  refine ⟨row, ⟨hget, hrow, rfl, ?_, ?_, ?_, hsize, ?_, ?_, ?_⟩, hrow?⟩
  · exact fun i => Registry.get?_entries_without c.registry e i
  · exact Registry.handleOf?_of_erase rfl
  · show (c.registry.byHost.erase e.host.id.number).size + 1 = c.registry.size
    omega
  · intro i
    show (c.tornDown e).world.rows.get? i = _
    rw [hworld, Slots.get?_clear]
    rfl
  · show (c.tornDown e).world.rows.size + 1 = c.world.rows.size
    rw [hworld]
    exact hrows
  · show (c.tornDown e).world.size + 1 = c.world.size
    rw [hworld]
    show c.world.size - 1 + 1 = c.world.size
    omega

theorem moves_unbind (c : Coordinator ο σ) (h : Handle) :
    c.Moves (c.raisedBetween (c.unbind h).2) (c.unbind h).2 := by
  cases hb : c.registry.bound h with
  | error error =>
    rw [unbind_of_error hb, raisedBetween_self]
    exact .refl _
  | ok e =>
    rw [unbind_of_bound hb]
    refine moves_of_change ?_ ⟨_, Array.toList_push⟩ fun _ hp => ?_
    · exact Nat.le_of_eq (Allocator.capacity_free _ _).symm
    · obtain ⟨row, hd, hrow⟩ := detached_tornDown hp hb
      refine ⟨_, ?_, .detach hd⟩
      simp [tornDown, note, announce, hrow]

/-! ## Binding -/

theorem foldl_reportMaterialization (failures : List Error) (c : Coordinator ο σ) :
    ∃ j is, failures.foldl reportMaterialization c =
      { c with journal := j, incidents := is } := by
  induction failures generalizing c with
  | nil => exact ⟨_, _, rfl⟩
  | cons failure failures ih => exact ih (c.reportMaterialization failure)

theorem foldl_announceComponent (h : Handle) (components : List ComponentId)
    (c : Coordinator ο σ) :
    ∃ o ss, components.foldl (announceComponent h) c = { c with outbox := o } ∧
      o.toList = c.outbox.toList ++ ss := by
  induction components generalizing c with
  | nil => exact ⟨_, [], rfl, by simp⟩
  | cons id components ih =>
    rw [List.foldl_cons, announceComponent]
    split
    · rename_i value _
      obtain ⟨o, ss, heq, ho⟩ := ih (c.announce (.componentAdded h id value))
      exact ⟨o, .componentAdded h id value :: ss, heq, by simp [ho, announce]⟩
    · exact ih c

/-- Components that the row has are all announced, with their values. -/
theorem outbox_foldl_announceComponent (h : Handle) (cells : List (ComponentId × Value))
    (c : Coordinator ο σ) (hc : ∀ x ∈ cells, c.world.value? h x.1 = some x.2) :
    ((cells.map Prod.fst).foldl (announceComponent h) c).outbox.toList =
      c.outbox.toList ++ cells.map fun x => .componentAdded h x.1 x.2 := by
  induction cells generalizing c with
  | nil => simp
  | cons x cells ih =>
    have hx : announceComponent h c x.1 = c.announce (.componentAdded h x.1 x.2) := by
      simp [announceComponent, hc x (by simp)]
    rw [List.map_cons, List.foldl_cons, hx]
    refine (ih (c.announce _) fun y hy => hc y (List.mem_cons_of_mem _ hy)).trans ?_
    simp [announce]

section Completing

variable (c : Coordinator ο σ) (registry : Registry) (h : Handle) (host : HostRef)

theorem complete_eq (components : List ComponentId) (failures : List Error) :
    ∃ j is o ss, c.complete registry h host components failures =
      { c with
        registry := if failures.isEmpty then registry else registry.markDegraded h
        journal := j, incidents := is, outbox := o } ∧
      o.toList = c.outbox.toList ++ ss := by
  obtain ⟨j, is, hf⟩ := foldl_reportMaterialization failures
    { c with registry := if failures.isEmpty then registry else registry.markDegraded h }
  obtain ⟨o, ss, heq, ho⟩ := foldl_announceComponent h components
    (announce { c with
      registry := if failures.isEmpty then registry else registry.markDegraded h
      journal := j, incidents := is } (.entityCreated h host.id))
  refine ⟨j.note (.bound host.id h), is, o, .entityCreated h host.id :: ss, ?_, ?_⟩
  · simp only [complete, hf, heq]
    rfl
  · rw [ho]
    simp [announce]

theorem registry_complete (components : List ComponentId) (failures : List Error) :
    (c.complete registry h host components failures).registry =
      if failures.isEmpty then registry else registry.markDegraded h := by
  obtain ⟨j, is, o, ss, heq, -⟩ := c.complete_eq registry h host components failures
  rw [heq]

theorem world_complete (components : List ComponentId) (failures : List Error) :
    (c.complete registry h host components failures).world = c.world := by
  obtain ⟨j, is, o, ss, heq, -⟩ := c.complete_eq registry h host components failures
  rw [heq]

/-- The entity is announced, then its components. -/
theorem outbox_complete (cells : List (ComponentId × Value)) (failures : List Error)
    (hc : ∀ x ∈ cells, c.world.value? h x.1 = some x.2) :
    (c.complete registry h host (cells.map Prod.fst) failures).outbox.toList =
      c.outbox.toList ++
        .entityCreated h host.id :: cells.map fun x => .componentAdded h x.1 x.2 := by
  obtain ⟨j, is, hf⟩ := foldl_reportMaterialization failures
    { c with registry := if failures.isEmpty then registry else registry.markDegraded h }
  simp only [complete, hf, note]
  refine (outbox_foldl_announceComponent h cells _ ?_).trans ?_
  · exact hc
  · simp [announce]

end Completing

/-- The state while a host object that had no entity gets one. -/
def opening (c : Coordinator ο σ) (host : HostRef) : Coordinator ο σ :=
  { c with
    registry := c.registry.opened host
    world := c.world.spawn c.registry.allocator.alloc.1 }.note
      (.allocated c.registry.allocator.alloc.1 host.id)

/-- The state after a host object that had no entity got one. -/
def attached (c : Coordinator ο σ) (host : HostRef) (object : ο) : Coordinator ο σ :=
  let h := c.registry.allocator.alloc.1
  let (components, failures, d) := (c.opening host).fill h host object
  d.complete (c.registry.settled host) h host components failures

theorem registry_fill (c : Coordinator ο σ) (h : Handle) (host : HostRef) (object : ο) :
    (c.fill h host object).2.2.registry = c.registry := by
  unfold fill
  split <;> rfl

theorem attach_of_gone {c : Coordinator ο σ} {host : HostRef} (ho : c.hosts.find? host = none) :
    c.attach host = (.error (.hostDropped host.id), c) := by
  simp [attach, ho]

theorem attach_of_bound {c : Coordinator ο σ} {host : HostRef} {object : ο} {h : Handle}
    (ho : c.hosts.find? host = some object) (hh : c.registry.handleOf? host.id = some h) :
    c.attach host = (.error (.alreadyBound host.id h), c) := by
  simp [attach, ho, Registry.bind, hh]

theorem attach_of_fresh {c : Coordinator ο σ} {host : HostRef} {object : ο}
    (ho : c.hosts.find? host = some object) (hf : c.registry.handleOf? host.id = none) :
    c.attach host = (.ok c.registry.allocator.alloc.1, c.attached host object) := by
  have hstate : (c.registry.opened host).setState c.registry.allocator.alloc.1 .bound =
      .ok (c.registry.settled host) :=
    Registry.setState_of_find? (c.registry.find?_opened host) .bound
  have hfill : ((c.opening host).fill c.registry.allocator.alloc.1 host object).2.2.registry =
      c.registry.opened host := registry_fill _ _ _ _
  rw [← hfill] at hstate
  simp only [opening] at hstate
  simp only [attach, ho, Registry.bind_of_fresh hf, hstate]
  rfl

/-- The slot of the next handle is empty. -/
theorem slot_free {c : Coordinator ο σ} (hp : c.population.Consistent)
    (hcap : c.registry.allocator.alloc.2.capacity ≤ 2 ^ 32) :
    c.registry.entries.get? c.registry.allocator.alloc.1.slot = none ∧
      c.world.rows.get? c.registry.allocator.alloc.1.slot = none := by
  have hi := Allocator.issued_alloc hp.nodup (fun i hi => ((hp.pooled i).mp hi).1) hcap
  have he := hp.entryAt?_of_issued hi
  exact ⟨he, hp.rowAt?_eq_none he⟩

section Filling

variable {c : Coordinator ο σ} {host : HostRef}
  (hw : c.world.rows.get? c.registry.allocator.alloc.1.slot = none)
include hw

theorem world_opening :
    (c.opening host).world =
      { rows := c.world.rows.put c.registry.allocator.alloc.1.slot
          { handle := c.registry.allocator.alloc.1 }
        size := c.world.size + 1 } :=
  World.spawn_of_free hw

theorem row?_opening :
    (c.opening host).world.row? c.registry.allocator.alloc.1 =
      some { handle := c.registry.allocator.alloc.1 } := by
  rw [World.row?_eq_some_iff, world_opening hw]
  exact ⟨by rw [Slots.get?_put, if_pos rfl], rfl⟩

/-- The world after a new row is filled : at the new slot the row, elsewhere what was there
before. -/
theorem get?_rows_filled {row : Row} (hrow : row.handle = c.registry.allocator.alloc.1)
    (i : Nat) :
    ((c.opening host).world.store row).rows.get? i =
      if i = c.registry.allocator.alloc.1.slot then some row else c.world.rows.get? i := by
  rw [World.store, World.get?_rows_modify, hrow, row?_opening hw, world_opening hw,
    Slots.get?_put]
  simp only [Option.isSome_some, and_true]
  split <;> rfl

theorem fill_opening (object : ο) {m : Materialized ο}
    (hm : c.table.materialize c.registry.allocator.alloc.1 object
      { handle := c.registry.allocator.alloc.1 } = m) :
    (c.opening host).fill c.registry.allocator.alloc.1 host object =
      (m.components, m.failures,
        { c.opening host with world := (c.opening host).world.store m.row }.setHosts
          (c.hosts.putBack host m.object)) := by
  subst hm
  simp only [fill, row?_opening hw]
  rfl

end Filling

theorem registry_attached (c : Coordinator ο σ) (host : HostRef) (object : ο) :
    ∃ fine, (c.attached host object).registry = c.registry.flagged host fine :=
  ⟨_, registry_complete _ _ _ _ _ _⟩

theorem outbox_fill (c : Coordinator ο σ) (h : Handle) (host : HostRef) (object : ο) :
    (c.fill h host object).2.2.outbox = c.outbox := by
  unfold fill
  split <;> rfl

theorem outbox_attached (c : Coordinator ο σ) (host : HostRef) (object : ο) :
    ∃ ss, (c.attached host object).outbox.toList = c.outbox.toList ++ ss := by
  have hout := (c.opening host).outbox_fill c.registry.allocator.alloc.1 host object
  generalize hfill : (c.opening host).fill c.registry.allocator.alloc.1 host object = filled
    at hout
  obtain ⟨components, failures, d⟩ := filled
  obtain ⟨j, is, o, ss, heq, ho⟩ := d.complete_eq (c.registry.settled host)
    c.registry.allocator.alloc.1 host components failures
  refine ⟨ss, ?_⟩
  simp only [attached, hfill, heq, ho]
  rw [show d.outbox = c.outbox from hout]

theorem capacity_attached (c : Coordinator ο σ) (host : HostRef) (object : ο) :
    (c.attached host object).population.capacity = c.registry.allocator.alloc.2.capacity := by
  obtain ⟨fine, hr⟩ := c.registry_attached host object
  rw [Population.capacity, population, hr, Registry.allocator_flagged]

/-- Binding a host object that had no entity makes one change. -/
theorem attached_change {c : Coordinator ο σ} {host : HostRef} (object : ο)
    (hp : c.population.Consistent) (hf : c.registry.handleOf? host.id = none)
    (hcap : (c.attached host object).population.capacity ≤ 2 ^ 32) :
    ∃ cells row degraded,
      Population.Attached c.population c.registry.allocator.alloc.1 host cells row degraded
        (c.attached host object).population ∧
      (c.attached host object).outbox.toList = c.outbox.toList ++
        .entityCreated c.registry.allocator.alloc.1 host.id ::
          cells.map fun x => .componentAdded c.registry.allocator.alloc.1 x.1 x.2 := by
  rw [capacity_attached] at hcap
  obtain ⟨hentry, hrow⟩ := slot_free hp hcap
  obtain ⟨cells, hm⟩ := c.table.filled_materialize c.registry.allocator.alloc.1 object
  generalize hmeq : c.table.materialize c.registry.allocator.alloc.1 object
    { handle := c.registry.allocator.alloc.1 } = m at hm
  have hrows : ∀ i, ((c.opening host).world.store m.row).rows.get? i = _ :=
    get?_rows_filled hrow hm.handle
  have hvalue : ∀ x ∈ cells, ((c.opening host).world.store m.row).value?
      c.registry.allocator.alloc.1 x.1 = some x.2 := by
    intro x hx
    have hfound : ((c.opening host).world.store m.row).row? c.registry.allocator.alloc.1 =
        some m.row := by
      rw [World.row?_eq_some_iff, hrows, if_pos rfl]
      exact ⟨rfl, hm.handle⟩
    have hcell := (hm.cells x.1 (Cell.agreed x.2)).mpr ⟨x.2, hx, rfl⟩
    simp only [World.value?, hfound, Option.bind_some, Row.value?, hcell]
    rfl
  have hattached : c.attached host object =
      complete ({ c.opening host with world := (c.opening host).world.store m.row }.setHosts
        (c.hosts.putBack host m.object)) (c.registry.settled host)
        c.registry.allocator.alloc.1 host (cells.map Prod.fst) m.failures := by
    simp only [attached, fill_opening hrow object hmeq, hm.components]
  obtain ⟨fine, hreg⟩ := c.registry_attached host object
  have hworld : (c.attached host object).world = (c.opening host).world.store m.row := by
    rw [hattached, world_complete]
    rfl
  refine ⟨cells, m.row, !fine, ⟨hf, ?_, ?_, ?_, ?_, ?_, ?_, hm.handle, hm.ascending,
    hm.distinct, hm.cells, ?_, ?_⟩, ?_⟩
  · simp only [population, hreg, Registry.allocator_flagged]
  · intro i
    simp only [population, Population.entryAt?, hreg, Registry.get?_entries_flagged]
  · refine Registry.handleOf?_of_insert ?_
    simp only [population, hreg, Registry.byHost_flagged]
  · simp only [population, Registry.size, hreg, Registry.byHost_flagged]
    exact Registry.size_insert_byHost hf _
  · simp only [population, hreg]
    exact Registry.size_entries_flagged host fine hentry
  · intro i
    simp only [population, Population.rowAt?, hworld]
    exact hrows i
  · simp only [population, hworld, World.store, World.size_rows_modify, world_opening hrow]
    exact Slots.size_put_of_eq_none hrow _
  · simp only [population, hworld, World.store, World.size_modify, world_opening hrow]
  · rw [hattached]
    exact outbox_complete _ _ _ _ cells m.failures hvalue

theorem moves_attach (c : Coordinator ο σ) (host : HostRef) :
    c.Moves (c.raisedBetween (c.attach host).2) (c.attach host).2 := by
  cases ho : c.hosts.find? host with
  | none =>
    rw [attach_of_gone ho, raisedBetween_self]
    exact .refl _
  | some object =>
    cases hf : c.registry.handleOf? host.id with
    | some h =>
      rw [attach_of_bound ho hf, raisedBetween_self]
      exact .refl _
    | none =>
      rw [attach_of_fresh ho hf]
      refine moves_of_change ?_ (c.outbox_attached host object) fun hcap hp => ?_
      · rw [capacity_attached]
        exact Allocator.capacity_le_alloc _
      · obtain ⟨cells, row, degraded, ha, hout⟩ := attached_change object hp hf hcap
        exact ⟨_, hout, .attach ha⟩

/-- Binding ends with what attaching ends with, or tears that down again. -/
theorem bind_snd (c : Coordinator ο σ) (host : HostRef) :
    (c.bind host).2 = (c.attach host).2 ∨
      ∃ h, (c.bind host).2 =
        (((c.attach host).2.note (.droppedWhileBinding host.id h)).unbind h).2 := by
  unfold bind
  split
  · rename_i heq
    exact .inl (by rw [heq])
  · rename_i h d heq
    rw [heq]
    split
    · exact .inl rfl
    · refine .inr ⟨h, ?_⟩
      split <;> rename_i hunbind <;> rw [hunbind]

theorem moves_bind_of_attach (c : Coordinator ο σ) (host : HostRef) :
    (c.attach host).2.Moves ((c.attach host).2.raisedBetween (c.bind host).2)
      (c.bind host).2 := by
  rcases c.bind_snd host with heq | ⟨h, heq⟩
  · rw [heq, raisedBetween_self]
    exact .refl _
  · rw [heq]
    have hu := ((c.attach host).2.note (.droppedWhileBinding host.id h)).moves_unbind h
    exact ⟨hu.evolves, hu.outbox⟩

theorem moves_bind (c : Coordinator ο σ) (host : HostRef) :
    c.Moves (c.raisedByBind host) (c.bind host).2 :=
  (c.moves_attach host).append (c.moves_bind_of_attach host)

/-- The answer of a binding is the handle that was issued for it. -/
theorem attached_of_bind {c : Coordinator ο σ} {host : HostRef} {h : Handle}
    (hb : (c.bind host).1 = .ok h) :
    h = c.registry.allocator.alloc.1 ∧ ∃ object, (c.attach host).2 = c.attached host object := by
  have hattach : (c.attach host).1 = .ok h := by
    unfold bind at hb
    split at hb
    · cases hb
    · rename_i heq
      rw [heq]
      split at hb
      · exact hb
      · split at hb
        · cases hb
        · exact hb
  cases ho : c.hosts.find? host with
  | none =>
    rw [attach_of_gone ho] at hattach
    cases hattach
  | some object =>
    cases hf : c.registry.handleOf? host.id with
    | some h' =>
      rw [attach_of_bound ho hf] at hattach
      cases hattach
    | none =>
      rw [attach_of_fresh ho hf] at hattach ⊢
      exact ⟨(Except.ok.inj hattach).symm, object, rfl⟩

theorem moves_unbindHost (c : Coordinator ο σ) (id : HostId) :
    c.Moves (c.raisedBetween (c.unbindHost id).2) (c.unbindHost id).2 := by
  unfold unbindHost
  split
  · rw [raisedBetween_self]
    exact .refl _
  · exact c.moves_unbind _

/-! ## Components -/

theorem moves_addComponent (c : Coordinator ο σ) (h : Handle) (id : ComponentId)
    (value : Value) :
    c.Moves (c.raisedBetween (c.addComponent h id value).2) (c.addComponent h id value).2 := by
  unfold addComponent
  cases hb : c.registry.bound h with
  | error error => exact (Calm.refl c).moves_between
  | ok e =>
    cases hrow : c.world.row? h with
    | none => exact (Calm.refl c).moves_between
    | some row =>
      dsimp only
      split
      · rename_i hin
        refine Calm.moves_between ⟨Population.alike_modify c.registry fun r hr => ?_, rfl⟩
        rw [← Option.some.inj (hrow.symm.trans hr)]
        exact Row.alike_put hin _
      · rename_i hnot
        have hbound : c.registry.isBound h = true := by simp [Registry.isBound, hb, Except.toBool]
        have hshape := Population.reshaped_modify (f := fun r => r.insert id value) hbound hrow
          rfl fun hr => hr.put id (Cell.agreed value)
        exact moves_of_change (Nat.le_refl _) ⟨_, Array.toList_push⟩ fun _ _ =>
          ⟨[.componentAdded h id value], Array.toList_push,
            .add hshape (Bool.eq_false_iff.mpr hnot)⟩

theorem moves_removeComponent (c : Coordinator ο σ) (h : Handle) (id : ComponentId) :
    c.Moves (c.raisedBetween (c.removeComponent h id).2) (c.removeComponent h id).2 := by
  unfold removeComponent
  cases hb : c.registry.bound h with
  | error error => exact (Calm.refl c).moves_between
  | ok e =>
    cases hv : c.world.value? h id with
    | none => exact (Calm.refl c).moves_between
    | some value =>
      obtain ⟨row, hrow, hcell⟩ := Option.bind_eq_some_iff.mp hv
      have hbound : c.registry.isBound h = true := by simp [Registry.isBound, hb, Except.toBool]
      have hshape := Population.reshaped_modify (f := fun r => r.erase id) hbound hrow rfl
        fun hr => hr.erase id
      exact moves_of_change (Nat.le_refl _) ⟨_, Array.toList_push⟩ fun _ _ =>
        ⟨[.componentRemoved h id value], Array.toList_push, .remove hshape hcell⟩

theorem calm_write (c : Coordinator ο σ) (h : Handle) (id : ComponentId) (value : Value) :
    c.Calm { c with world := c.world.modify h fun r => r.write id value } :=
  ⟨Population.alike_modify c.registry fun r _ => r.alike_write id value, rfl⟩

theorem calm_writeComponent (c : Coordinator ο σ) (h : Handle) (id : ComponentId)
    (value : Value) : c.Calm (c.writeComponent h id value).2 := by
  unfold writeComponent
  split
  · exact c.calm_write h id value
  · exact .refl c

theorem calm_writeWorld (c : Coordinator ο σ) (h : Handle) (id : ComponentId)
    (value : Value) : c.Calm (c.writeWorld h id value).2 := by
  unfold writeWorld
  split
  · exact c.calm_write h id value
  · exact .refl c

end Coordinator

end Tether
