import Tether.Proofs.Accesses

/-!
# How far synchronization goes

The direction of a pass limits what it may touch. Over one entity `Table.confined_synchronize`
says how : a pass from the host writes nothing to the host object, a pass to the host leaves all
values of the row as they are, and neither adds or removes a component.

The coordinator runs such passes over entities that are bound. `Coordinator.Confined` says what
this leaves of its state : everything that is neither the row nor the host object of one of these
entities is as before, the registry, the mutation queue, the outbox and the delayed signals
included. It holds of nothing done and of one thing done after the other, so from a pass over one
row (`Coordinator.confined_syncRow`) it is taken to `Coordinator.synchronize` and
`Coordinator.synchronizeAll`. All of this together is `confined_synchronization`.
-/

set_option linter.unusedSectionVars false

namespace Tether

/-- What passes of a direction make of a row : its components stay, and their values stay if
values flow to the host only. -/
structure Row.Kept (direction : Direction) (r r' : Row) : Prop where
  alike : r.Alike r'
  values : direction = .ecsToHost → ∀ id, r'.value? id = r.value? id

theorem Row.Kept.trans {direction : Direction} {r r' r'' : Row} (h : r.Kept direction r')
    (h' : r'.Kept direction r'') : r.Kept direction r'' :=
  ⟨h.alike.trans h'.alike, fun hd id => (h'.values hd id).trans (h.values hd id)⟩

/-- A row that is stored takes the place of the row of its handle. -/
theorem World.get?_rows_store {w : World} {row r : Row} (hrow : w.row? r.handle = some row)
    (i : Nat) :
    (w.store r).rows.get? i = if i = r.handle.slot then some r else w.rows.get? i := by
  rw [store, get?_rows_modify, hrow]
  by_cases hi : i = r.handle.slot
  · simp [hi, (row?_eq_some_iff.mp hrow).1]
  · simp [hi]

theorem Registry.isBound_of_resolve? {r : Registry} {h : Handle} {ref : HostRef}
    (href : r.resolve? h = some ref) : r.isBound h = true := by
  obtain ⟨e, hbound, -⟩ := resolve?_eq_some_iff.mp href
  exact isBound_iff.mpr ⟨e, bound_eq_ok_iff.mp hbound⟩

variable {ο σ : Type} [HostObject ο]

/-- What passes of a direction make of a host object : it is accessed, and not written if values
flow from the host only. Then it is gone if nothing keeps it in existence. -/
def HostCell.Asked (direction : Direction) (x : HostCell ο) (y : Option (HostCell ο)) : Prop :=
  ∃ as : List Access, (direction = .hostToEcs → ∀ a ∈ as, a.isWrite = false) ∧
    y = if x.owned || HostObject.keepsItself (as.foldl Access.after x.object)
      then some { x with object := as.foldl Access.after x.object } else none

theorem HostCell.Asked.trans {direction : Direction} {x y : HostCell ο} {z : Option (HostCell ο)}
    (h : x.Asked direction (some y)) (h' : y.Asked direction z) : x.Asked direction z := by
  obtain ⟨as, hquiet, hy⟩ := h
  obtain ⟨as', hquiet', hz⟩ := h'
  split at hy
  · obtain rfl := Option.some.inj hy
    refine ⟨as ++ as', fun hd a ha => ?_, by rw [hz, List.foldl_append]⟩
    exact (List.mem_append.mp ha).elim (hquiet hd a) (hquiet' hd a)
  · cases hy

namespace Coordinator

/-- Passes over entities of `visited` lead from `c` to `d`. -/
structure Confined (c : Coordinator ο σ) (direction : Direction) (visited : Handle → Prop)
    (d : Coordinator ο σ) : Prop where
  registry : d.registry = c.registry
  outbox : d.outbox = c.outbox
  queue : d.queue = c.queue
  named : d.named = c.named
  table : d.table = c.table
  settings : d.settings = c.settings
  switchboard : d.switchboard = c.switchboard
  ambient : d.surroundings.ambient = c.surroundings.ambient
  /-- A row stays as it is, or it is the row of a visited entity. -/
  rows : ∀ i, d.world.rows.get? i = c.world.rows.get? i ∨
    ∃ h row row', visited h ∧ h.slot = i ∧ c.world.row? h = some row ∧
      d.world.row? h = some row' ∧ row.Kept direction row'
  size : d.world.size = c.world.size
  /-- A host object stays as it is, or it is the one of a visited entity. -/
  hosts : ∀ a, d.hosts.cells.get? a = c.hosts.cells.get? a ∨
    ∃ h ref cell, visited h ∧ c.registry.resolve? h = some ref ∧ ref.address = a ∧
      c.hosts.cells.get? a = some cell ∧ cell.Asked direction (d.hosts.cells.get? a)
  created : d.hosts.created = c.hosts.created

variable {direction : Direction} {visited : Handle → Prop} {c d e : Coordinator ο σ}

/-- Other frames, journals and incidents do not count. -/
theorem Confined.of_eq
    (hrest : ∃ f j is, d = { c with frame := f, journal := j, incidents := is }) :
    c.Confined direction visited d := by
  obtain ⟨f, j, is, rfl⟩ := hrest
  exact ⟨rfl, rfl, rfl, rfl, rfl, rfl, rfl, rfl, fun _ => .inl rfl, rfl, fun _ => .inl rfl, rfl⟩

theorem Confined.trans (h : c.Confined direction visited d) (h' : d.Confined direction visited e) :
    c.Confined direction visited e where
  registry := h'.registry.trans h.registry
  outbox := h'.outbox.trans h.outbox
  queue := h'.queue.trans h.queue
  named := h'.named.trans h.named
  table := h'.table.trans h.table
  settings := h'.settings.trans h.settings
  switchboard := h'.switchboard.trans h.switchboard
  ambient := h'.ambient.trans h.ambient
  rows i := by
    rcases h'.rows i with hsame | ⟨k, row', row'', hk, rfl, hd, he, hkept'⟩
    · rw [hsame]
      rcases h.rows i with hone | ⟨k, row, row', hk, rfl, hc, hd, hkept⟩
      · exact .inl hone
      · exact .inr ⟨k, row, row', hk, rfl, hc, by rw [World.row?, hsame]; exact hd, hkept⟩
    · rcases h.rows k.slot with hone | ⟨k', row, row₁, hk', hslot, hc, hd', hkept⟩
      · have hc : c.world.row? k = some row' := by rw [World.row?, ← hone]; exact hd
        exact .inr ⟨k, row', row'', hk, rfl, hc, he, hkept'⟩
      · -- two rows at one slot are one row
        obtain ⟨hget, hhandle⟩ := World.row?_eq_some_iff.mp hd
        obtain ⟨hget', hhandle'⟩ := World.row?_eq_some_iff.mp hd'
        rw [hslot, hget] at hget'
        obtain rfl := Option.some.inj hget'
        obtain rfl : k = k' := hhandle.symm.trans hhandle'
        exact .inr ⟨k, row, row'', hk, rfl, hc, he, hkept.trans hkept'⟩
  size := h'.size.trans h.size
  hosts a := by
    rcases h'.hosts a with hsame | ⟨k, ref, cell', hk, href, haddress, hd, hasked'⟩
    · rw [hsame]
      exact h.hosts a
    · rw [h.registry] at href
      rcases h.hosts a with hone | ⟨k', ref', cell, hk', href', haddress', hc, hasked⟩
      · exact .inr ⟨k, ref, cell', hk, href, haddress, hone ▸ hd, hasked'⟩
      · rw [hd] at hasked
        exact .inr ⟨k', ref', cell, hk', href', haddress', hc, hasked.trans hasked'⟩
  created := h'.created.trans h.created

/-- A pass over the row of a visited entity with its host object. -/
theorem confined_syncRow {h : Handle} {ref : HostRef} {object : ο} {row : Row}
    (hvisited : visited h) (href : c.registry.resolve? h = some ref)
    (hobject : c.hosts.find? ref = some object) (hrow : c.world.row? h = some row) :
    c.Confined direction visited (c.syncRow direction ref object row).2 := by
  obtain ⟨-, rfl⟩ := World.row?_eq_some_iff.mp hrow
  obtain ⟨cell, hcell, rfl⟩ := Option.map_eq_some_iff.mp hobject
  have hpass :=
    c.table.confined_synchronize direction row.handle cell.object row c.journal
  have halike := hpass.alike
  have hkept : row.Kept direction
      (c.table.synchronize direction row.handle cell.object row c.journal).row :=
    ⟨halike, hpass.values⟩
  have hasked := hpass.reads
  have hreached := hpass.reached
  unfold syncRow
  dsimp only
  generalize c.table.synchronize direction row.handle cell.object row c.journal = p at *
  refine ⟨rfl, rfl, rfl, rfl, rfl, rfl, rfl, rfl, fun i => ?_, World.size_modify _ _ _,
    fun a => ?_, Hosts.created_putBack _ _ _⟩
  · show (c.world.store p.row).rows.get? i = _ ∨ _
    have hstored := World.get?_rows_store (halike.handle ▸ hrow)
    by_cases hi : i = p.row.handle.slot
    · refine .inr ⟨row.handle, row, p.row, hvisited, halike.handle ▸ hi.symm, hrow, ?_, hkept⟩
      refine World.row?_eq_some_iff.mpr ⟨?_, halike.handle⟩
      rw [← halike.handle]
      exact (hstored _).trans (if_pos rfl)
    · exact .inl ((hstored i).trans (if_neg hi))
  · show (c.hosts.putBack ref p.object).cells.get? a = _ ∨ _
    by_cases ha : ref.address = a
    · subst ha
      refine .inr ⟨row.handle, ref, cell, hvisited, href, rfl, hcell, _, hasked, ?_⟩
      show (c.hosts.putBack ref p.object).cells.get? _ = _
      rw [Hosts.get?_putBack, if_pos rfl, hcell, ← hreached]
      rfl
    · exact .inl ((Hosts.get?_putBack _ _ _ _).trans (if_neg fun heq => ha heq.symm))

theorem Confined.reports (h : c.Confined direction visited d) (failures : List Error) :
    c.Confined direction visited (failures.foldl reportSynchronization d) := by
  obtain ⟨j, is, hreports⟩ := foldl_reportSynchronization failures d
  exact h.trans (.of_eq ⟨d.frame, j, is, hreports⟩)

/-- A pass over one entity. -/
theorem confined_synchronize (c : Coordinator ο σ) (h : Handle) (direction : Direction) :
    c.Confined direction (fun k => k = h ∧ c.registry.isBound k = true)
      (c.synchronize h direction).2 := by
  have hnothing : c.Confined direction (fun k => k = h ∧ c.registry.isBound k = true) c :=
    .of_eq ⟨_, _, _, rfl⟩
  unfold synchronize
  split
  · exact hnothing
  · rename_i entry hbound
    have href : c.registry.resolve? h = some entry.host :=
      Registry.resolve?_eq_some_iff.mpr ⟨entry, hbound, rfl⟩
    split
    · exact hnothing
    · rename_i object hobject
      split
      · exact hnothing
      · rename_i row hrow
        have hbound := Registry.isBound_of_resolve? href
        exact (confined_syncRow ⟨rfl, hbound⟩ href hobject hrow).reports _

theorem confined_visit {h : Handle} (hvisited : c.registry.isBound h = true → visited h)
    (direction : Direction) (report : SyncReport) :
    c.Confined direction visited (visit direction (report, c) h).2 := by
  unfold visit
  dsimp only
  split
  · rename_i ref row href hrow
    split
    · rename_i object hobject
      exact confined_syncRow (hvisited (Registry.isBound_of_resolve? href)) href hobject hrow
    · exact .of_eq ⟨_, _, _, rfl⟩
  · exact .of_eq ⟨_, _, _, rfl⟩

theorem confined_foldl_visit (direction : Direction) (hs : List Handle) (report : SyncReport)
    (c : Coordinator ο σ) :
    c.Confined direction (fun k => c.registry.isBound k = true)
      (hs.foldl (visit direction) (report, c)).2 := by
  induction hs generalizing report c with
  | nil => exact .of_eq ⟨_, _, _, rfl⟩
  | cons h hs ih =>
    have hone : c.Confined direction (fun k => c.registry.isBound k = true)
        (visit direction (report, c) h).2 := confined_visit id direction report
    have hrest := ih (visit direction (report, c) h).1 (visit direction (report, c) h).2
    rw [hone.registry] at hrest
    exact hone.trans hrest

/-- A pass over all entities, whoever does the work. -/
theorem confined_synchronizeAll (c : Coordinator ο σ) (direction : Direction) :
    c.Confined direction (fun k => c.registry.isBound k = true)
      (c.synchronizeAll direction).2 := by
  rw [synchronizeAll_eq]
  have hstart : c.Confined direction (fun k => c.registry.isBound k = true) c.synchronizing :=
    .of_eq ⟨_, _, _, rfl⟩
  exact (hstart.trans (confined_foldl_visit direction c.boundRows {} c.synchronizing)).reports _

end Coordinator

/-- The direction of a pass limits what it may touch :

* whatever the table, the row and the host object, a pass goes no further than its direction and
  those of its bindings let it (`Table.Confined`);
* a pass over a bag of properties neither adds nor removes a property;
* synchronizing one entity, or all of them, goes no further than passes over entities that are
  bound (`Coordinator.Confined`). -/
theorem confined_synchronization :
    (∀ (t : Table) (direction : Direction) (handle : Handle) (object : ο) (row : Row)
      (journal : Journal), t.Confined direction handle object row journal) ∧
    (∀ (t : Table) (direction : Direction) (handle : Handle) (bag : PropertyBag) (row : Row)
      (journal : Journal),
      (t.synchronize direction handle bag row journal).object.names = bag.names) ∧
    ∀ (c : Coordinator ο σ) (direction : Direction),
      (∀ h, c.Confined direction (fun k => k = h ∧ c.registry.isBound k = true)
        (c.synchronize h direction).2) ∧
      c.Confined direction (fun k => c.registry.isBound k = true)
        (c.synchronizeAll direction).2 := by
  refine ⟨Table.confined_synchronize, fun t direction handle bag row journal => ?_,
    fun c direction => ⟨fun h => c.confined_synchronize h direction,
      c.confined_synchronizeAll direction⟩⟩
  rw [(t.confined_synchronize direction handle bag row journal).reached]
  exact PropertyBag.names_foldl_after _ bag

end Tether
