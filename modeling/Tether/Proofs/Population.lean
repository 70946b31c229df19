import Tether.Proofs.Entities

/-!
# Populations and their changes

A `Population` is the registry and the world of a coordinator : who is bound, and what
components everybody has. It is `Consistent` if the map from host identities, the entries, the
rows and the slots of the allocator say the same.

Whatever a coordinator does to its population is a series of five elementary changes
(`Change`), each with the lifecycle signals that it raises : an entity comes or goes, it gets
or loses a component, or nothing but values and flags change. A `Trace` is such a series, with
the worlds between which each signal was raised. A change keeps a population consistent as
long as slot numbers last (`Change.consistent`), and so does a series of them
(`Trace.consistent`).
-/

set_option linter.unusedSectionVars false

namespace Tether

/-- What a binding is about, its degraded flag apart. -/
def Entry.binding (e : Entry) : Handle × HostRef × Lifecycle := (e.handle, e.host, e.state)

/-- Who is bound, and the components of all. -/
structure Population where
  registry : Registry
  world : World

/-- A signal that was raised, with the worlds before and after the change that raised it. -/
structure Raised where
  signal : Signal
  before : World
  after : World

namespace Population

/-- How many slots were ever allocated. -/
def capacity (p : Population) : Nat := p.registry.allocator.capacity

/-- The entry of a slot. -/
def entryAt? (p : Population) (i : Nat) : Option Entry := p.registry.entries.get? i

/-- The row of a slot. -/
def rowAt? (p : Population) (i : Nat) : Option Row := p.world.rows.get? i

/-- Host identities, entries, rows and slots agree. -/
structure Consistent (p : Population) : Prop where
  /-- An entry lies at the slot of its handle, which is current there. -/
  placed : ∀ {i e}, p.entryAt? i = some e → e.handle.slot = i
  current : ∀ {i e}, p.entryAt? i = some e →
    p.registry.allocator.current? e.handle.index = some e.handle.generation
  /-- No binding is under way. -/
  bound : ∀ {i e}, p.entryAt? i = some e → e.state = .bound
  mapped : ∀ {i e}, p.entryAt? i = some e → p.registry.handleOf? e.host.id = some e.handle
  entered : ∀ {id h}, p.registry.handleOf? id = some h →
    ∃ e, p.entryAt? h.slot = some e ∧ e.handle = h ∧ e.host.id = id
  /-- A slot waits to be used again, once, exactly if it was in use and is empty. -/
  nodup : p.registry.allocator.pool.Nodup
  pooled : ∀ i, i ∈ p.registry.allocator.pool ↔
    (p.registry.allocator.current? i).isSome ∧ p.entryAt? i.toNat = none
  /-- Rows and entries lie at the same slots and carry the same handles. -/
  rows : ∀ i, (p.rowAt? i).map Row.handle = (p.entryAt? i).map Entry.handle
  ascending : ∀ {i row}, p.rowAt? i = some row → row.Ascending
  bindings : p.registry.size = p.registry.entries.size
  filled : p.world.rows.size = p.registry.entries.size
  counted : p.world.size = p.world.rows.size

/-! ## The elementary changes -/

/-- Nothing but values of components and degraded flags change. -/
structure Alike (p q : Population) : Prop where
  allocator : q.registry.allocator = p.registry.allocator
  byHost : q.registry.byHost = p.registry.byHost
  entries : ∀ i, (q.entryAt? i).map Entry.binding = (p.entryAt? i).map Entry.binding
  occupied : q.registry.entries.size = p.registry.entries.size
  rows : ∀ i, Option.Rel Row.Alike (p.rowAt? i) (q.rowAt? i)
  filled : q.world.rows.size = p.world.rows.size
  counted : q.world.size = p.world.size

/-- A host object gets an entity, whose row holds the given cells. -/
structure Attached (p : Population) (h : Handle) (host : HostRef)
    (cells : List (ComponentId × Value)) (row : Row) (degraded : Bool) (q : Population) :
    Prop where
  fresh : p.registry.handleOf? host.id = none
  issued : p.registry.allocator.alloc = (h, q.registry.allocator)
  entries : ∀ i, q.entryAt? i =
    if i = h.slot then some ⟨h, host, .bound, degraded⟩ else p.entryAt? i
  byHost : ∀ id, q.registry.handleOf? id =
    if id = host.id then some h else p.registry.handleOf? id
  bindings : q.registry.size = p.registry.size + 1
  occupied : q.registry.entries.size = p.registry.entries.size + 1
  rows : ∀ i, q.rowAt? i = if i = h.slot then some row else p.rowAt? i
  handle : row.handle = h
  ascending : row.Ascending
  distinct : (cells.map Prod.fst).Nodup
  cells : ∀ id cell, row.cell? id = some cell ↔ ∃ v, (id, v) ∈ cells ∧ cell = Cell.agreed v
  filled : q.world.rows.size = p.world.rows.size + 1
  counted : q.world.size = p.world.size + 1

/-- An entity is torn down. -/
structure Detached (p : Population) (e : Entry) (row : Row) (q : Population) : Prop where
  found : p.entryAt? e.handle.slot = some e
  present : p.rowAt? e.handle.slot = some row
  allocator : q.registry.allocator = (p.registry.allocator.free e.handle).2
  entries : ∀ i, q.entryAt? i = if i = e.handle.slot then none else p.entryAt? i
  byHost : ∀ id, q.registry.handleOf? id =
    if id = e.host.id then none else p.registry.handleOf? id
  bindings : q.registry.size + 1 = p.registry.size
  occupied : q.registry.entries.size + 1 = p.registry.entries.size
  rows : ∀ i, q.rowAt? i = if i = e.handle.slot then none else p.rowAt? i
  filled : q.world.rows.size + 1 = p.world.rows.size
  counted : q.world.size + 1 = p.world.size

/-- The row of a bound entity is replaced by another one. -/
structure Reshaped (p : Population) (h : Handle) (row row' : Row) (q : Population) : Prop where
  registry : q.registry = p.registry
  found : p.registry.isBound h = true
  present : p.world.row? h = some row
  handle : row'.handle = h
  ascending : row.Ascending → row'.Ascending
  rows : ∀ i, q.rowAt? i = if i = h.slot then some row' else p.rowAt? i
  filled : q.world.rows.size = p.world.rows.size
  counted : q.world.size = p.world.size

/-- One elementary change, with the signals that it raises. -/
inductive Change : Population → List Signal → Population → Prop
  /-- Nothing but values and flags change. -/
  | quiet {p q} : Alike p q → Change p [] q
  /-- An entity comes with its components. -/
  | attach {p h host cells row degraded q} : Attached p h host cells row degraded q →
      Change p (.entityCreated h host.id :: cells.map fun c => .componentAdded h c.1 c.2) q
  /-- An entity goes. -/
  | detach {p e row q} : Detached p e row q →
      Change p [.entityDestroying e.handle e.host.id row.snapshot] q
  /-- An entity gets a component. -/
  | add {p h row id v q} : Reshaped p h row (row.insert id v) q → row.contains id = false →
      Change p [.componentAdded h id v] q
  /-- An entity loses a component. -/
  | remove {p h row id v q} : Reshaped p h row (row.erase id) q → row.value? id = some v →
      Change p [.componentRemoved h id v] q

/-! ## Changes keep a population consistent -/

theorem Alike.refl (p : Population) : Alike p p := by
  refine ⟨rfl, rfl, fun _ => rfl, rfl, fun i => ?_, rfl, rfl⟩
  cases p.rowAt? i with
  | none => exact .none
  | some row => exact .some (Row.Alike.refl row)

theorem Alike.trans {p q r : Population} (h : Alike p q) (h' : Alike q r) : Alike p r := by
  refine ⟨h'.allocator.trans h.allocator, h'.byHost.trans h.byHost,
    fun i => (h'.entries i).trans (h.entries i), h'.occupied.trans h.occupied, fun i => ?_,
    h'.filled.trans h.filled, h'.counted.trans h.counted⟩
  have hpq := h.rows i
  have hqr := h'.rows i
  generalize p.rowAt? i = a at hpq ⊢
  generalize q.rowAt? i = b at hpq hqr
  generalize r.rowAt? i = c at hqr ⊢
  cases hpq with
  | none => exact hqr
  | some hab =>
    cases hqr with
    | some hbc => exact .some (hab.trans hbc)

/-- Both populations have the same entries, up to the flags. -/
theorem Alike.entry_of {p q : Population} (h : Alike p q) {i : Nat} {e : Entry}
    (he : q.entryAt? i = some e) :
    ∃ d, p.entryAt? i = some d ∧ d.handle = e.handle ∧ d.host = e.host ∧ d.state = e.state := by
  have hb := h.entries i
  rw [he] at hb
  obtain ⟨d, hd, heq⟩ := Option.map_eq_some_iff.mp hb.symm
  simp only [Entry.binding, Prod.mk.injEq] at heq
  exact ⟨d, hd, heq⟩

theorem Alike.symm_entry_of {p q : Population} (h : Alike p q) {i : Nat} {e : Entry}
    (he : p.entryAt? i = some e) :
    ∃ d, q.entryAt? i = some d ∧ d.handle = e.handle ∧ d.host = e.host ∧ d.state = e.state := by
  have hb := h.entries i
  rw [he] at hb
  obtain ⟨d, hd, heq⟩ := Option.map_eq_some_iff.mp hb
  simp only [Entry.binding, Prod.mk.injEq] at heq
  exact ⟨d, hd, heq⟩

theorem Alike.entry_eq_none {p q : Population} (h : Alike p q) (i : Nat) :
    q.entryAt? i = none ↔ p.entryAt? i = none := by
  have hb := h.entries i
  rw [← Option.map_eq_none_iff (f := Entry.binding), hb, Option.map_eq_none_iff]

theorem Alike.row_of {p q : Population} (h : Alike p q) {i : Nat} {row' : Row}
    (hrow : q.rowAt? i = some row') : ∃ row, p.rowAt? i = some row ∧ row.Alike row' := by
  have hr := h.rows i
  rw [hrow] at hr
  generalize p.rowAt? i = a at hr
  cases hr with
  | some ha => exact ⟨_, rfl, ha⟩

theorem Alike.symm_row_of {p q : Population} (h : Alike p q) {i : Nat} {row : Row}
    (hrow : p.rowAt? i = some row) : ∃ row', q.rowAt? i = some row' ∧ row.Alike row' := by
  have hr := h.rows i
  rw [hrow] at hr
  generalize q.rowAt? i = a at hr
  cases hr with
  | some ha => exact ⟨_, rfl, ha⟩

theorem Alike.row_handle {p q : Population} (h : Alike p q) (i : Nat) :
    (q.rowAt? i).map Row.handle = (p.rowAt? i).map Row.handle := by
  have hr := h.rows i
  generalize p.rowAt? i = a at hr ⊢
  generalize q.rowAt? i = b at hr ⊢
  cases hr with
  | none => rfl
  | some ha => exact congrArg some ha.handle

theorem Alike.consistent {p q : Population} (h : Alike p q) (hp : p.Consistent) :
    q.Consistent where
  placed he := by
    obtain ⟨d, hd, hh, -⟩ := h.entry_of he
    rw [← hh]
    exact hp.placed hd
  current he := by
    obtain ⟨d, hd, hh, -⟩ := h.entry_of he
    rw [h.allocator, ← hh]
    exact hp.current hd
  bound he := by
    obtain ⟨d, hd, -, -, hs⟩ := h.entry_of he
    rw [← hs]
    exact hp.bound hd
  mapped he := by
    obtain ⟨d, hd, hh, hhost, -⟩ := h.entry_of he
    rw [Registry.handleOf?, h.byHost, ← hh, ← hhost]
    exact hp.mapped hd
  entered hid := by
    rw [Registry.handleOf?, h.byHost] at hid
    obtain ⟨d, hd, hh, hhost⟩ := hp.entered hid
    obtain ⟨e, he, heh, heho, -⟩ := h.symm_entry_of hd
    exact ⟨e, he, heh.trans hh, by rw [heho, hhost]⟩
  nodup := h.allocator ▸ hp.nodup
  pooled i := by
    rw [h.allocator, h.entry_eq_none]
    exact hp.pooled i
  rows i := by
    have hentry : (q.entryAt? i).map Entry.handle = (p.entryAt? i).map Entry.handle := by
      have := congrArg (Option.map Prod.fst) (h.entries i)
      simpa [Option.map_map, Function.comp_def, Entry.binding] using this
    rw [h.row_handle, hentry]
    exact hp.rows i
  ascending hrow := by
    obtain ⟨row, hrow, ha⟩ := h.row_of hrow
    exact ha.ascending (hp.ascending hrow)
  bindings := by
    rw [h.occupied, ← hp.bindings, Registry.size, h.byHost]
    rfl
  filled := by rw [h.filled, h.occupied, hp.filled]
  counted := by rw [h.counted, h.filled, hp.counted]

/-- The slot of a handle that is issued next is empty. -/
theorem Consistent.entryAt?_of_issued {p : Population} (hp : p.Consistent) {h : Handle}
    {a : Allocator} (hi : p.registry.allocator.Issued h a) : p.entryAt? h.slot = none := by
  rcases hi.free with hpool | hnone
  · exact ((hp.pooled h.index).mp hpool).2
  · cases he : p.entryAt? h.slot with
    | none => rfl
    | some e =>
      have hindex : e.handle.index = h.index := UInt32.toNat_inj.mp (hp.placed he)
      have hcur := hp.current he
      rw [hindex, hnone] at hcur
      cases hcur

theorem Consistent.rowAt?_eq_none {p : Population} (hp : p.Consistent) {i : Nat}
    (he : p.entryAt? i = none) : p.rowAt? i = none := by
  have hr := hp.rows i
  rw [he] at hr
  exact Option.map_eq_none_iff.mp hr

/-- The row of a bound entity. -/
theorem Consistent.rowAt?_of_entryAt? {p : Population}
    (hp : p.Consistent) {i : Nat} {e : Entry} (he : p.entryAt? i = some e) :
    ∃ row, p.rowAt? i = some row ∧ row.handle = e.handle := by
  have hr := hp.rows i
  rw [he] at hr
  exact Option.map_eq_some_iff.mp hr

theorem Attached.allocator_issued {p q : Population} {h host cells row degraded}
    (ha : Attached p h host cells row degraded q) (hp : p.Consistent)
    (hcap : q.capacity ≤ 2 ^ 32) : p.registry.allocator.Issued h q.registry.allocator := by
  have hi := Allocator.issued_alloc hp.nodup (fun i hi => ((hp.pooled i).mp hi).1)
    (by rw [ha.issued]; exact hcap)
  rw [ha.issued] at hi
  exact hi

theorem Attached.consistent {p q : Population} {h host cells row degraded}
    (ha : Attached p h host cells row degraded q) (hp : p.Consistent)
    (hcap : q.capacity ≤ 2 ^ 32) : q.Consistent := by
  have hi := ha.allocator_issued hp hcap
  have hfree := hp.entryAt?_of_issued hi
  -- an old entry lies at another slot, so it carries another handle
  have hother : ∀ {i e}, i ≠ h.slot → p.entryAt? i = some e → e.handle.index ≠ h.index := by
    intro i e hne he hindex
    exact hne ((hp.placed he).symm.trans (congrArg UInt32.toNat hindex))
  constructor
  case placed =>
    intro i e he
    rw [ha.entries] at he
    split at he
    · rename_i hslot
      rw [← Option.some.inj he, hslot]
    · exact hp.placed he
  case current =>
    intro i e he
    rw [ha.entries] at he
    split at he
    · rw [← Option.some.inj he]
      exact hi.current
    · rename_i hne
      rw [hi.others _ (hother hne he)]
      exact hp.current he
  case bound =>
    intro i e he
    rw [ha.entries] at he
    split at he
    · rw [← Option.some.inj he]
    · exact hp.bound he
  case mapped =>
    intro i e he
    rw [ha.entries] at he
    rw [ha.byHost]
    split at he
    · rw [← Option.some.inj he, if_pos rfl]
    · have hid : e.host.id ≠ host.id := by
        intro heq
        have hmap := hp.mapped he
        rw [heq, ha.fresh] at hmap
        cases hmap
      rw [if_neg hid]
      exact hp.mapped he
  case entered =>
    intro id h' hid
    rw [ha.byHost] at hid
    simp only [ha.entries]
    split at hid
    · rename_i heq
      rw [← Option.some.inj hid, if_pos rfl]
      exact ⟨_, rfl, rfl, heq.symm⟩
    · obtain ⟨e, he, hrest⟩ := hp.entered hid
      have hne : h'.slot ≠ h.slot := by
        intro heq
        rw [heq, hfree] at he
        cases he
      rw [if_neg hne]
      exact ⟨e, he, hrest⟩
  case nodup => exact hi.nodup
  case pooled =>
    intro i
    rw [hi.pool, hp.pooled, ha.entries]
    by_cases hih : i = h.index
    · subst hih
      simp [Handle.slot]
    · have hne : i.toNat ≠ h.slot := fun heq => hih (UInt32.toNat_inj.mp heq)
      rw [hi.others i hih, if_neg hne]
      simp [hih]
  case rows =>
    intro i
    rw [ha.rows, ha.entries]
    split
    · exact congrArg some ha.handle
    · exact hp.rows i
  case ascending =>
    intro i r hr
    rw [ha.rows] at hr
    split at hr
    · rw [← Option.some.inj hr]
      exact ha.ascending
    · exact hp.ascending hr
  case bindings => rw [ha.bindings, ha.occupied, hp.bindings]
  case filled => rw [ha.filled, ha.occupied, hp.filled]
  case counted => rw [ha.counted, ha.filled, hp.counted]

theorem Detached.current {p q : Population} {e row} (hd : Detached p e row q)
    (hp : p.Consistent) :
    p.registry.allocator.current? e.handle.index = some e.handle.generation :=
  hp.current hd.found

theorem Detached.consistent {p q : Population} {e row} (hd : Detached p e row q)
    (hp : p.Consistent) : q.Consistent := by
  have hcur := hd.current hp
  constructor
  case placed =>
    intro i d he
    rw [hd.entries] at he
    split at he
    · cases he
    · exact hp.placed he
  case current =>
    intro i d he
    rw [hd.entries] at he
    split at he
    · cases he
    · rename_i hne
      have hindex : d.handle.index ≠ e.handle.index := fun heq =>
        hne ((hp.placed he).symm.trans (congrArg UInt32.toNat heq))
      rw [hd.allocator, Allocator.current?_free hcur, if_neg hindex]
      exact hp.current he
  case bound =>
    intro i d he
    rw [hd.entries] at he
    split at he
    · cases he
    · exact hp.bound he
  case mapped =>
    intro i d he
    rw [hd.entries] at he
    split at he
    · cases he
    · rename_i hne
      have hmap := hp.mapped he
      have hid : d.host.id ≠ e.host.id := by
        intro heq
        rw [heq, hp.mapped hd.found] at hmap
        exact hne ((hp.placed he).symm.trans (congrArg Handle.slot (Option.some.inj hmap.symm)))
      rw [hd.byHost, if_neg hid]
      exact hmap
  case entered =>
    intro id h hid
    rw [hd.byHost] at hid
    split at hid
    · cases hid
    · rename_i hne
      obtain ⟨d, he, hh, hhost⟩ := hp.entered hid
      have hslot : h.slot ≠ e.handle.slot := by
        intro heq
        rw [heq, hd.found] at he
        rw [← Option.some.inj he] at hhost
        exact hne hhost.symm
      refine ⟨d, ?_, hh, hhost⟩
      rw [hd.entries, if_neg hslot]
      exact he
  case nodup =>
    have hnot : e.handle.index ∉ p.registry.allocator.pool := by
      rw [hp.pooled]
      rintro ⟨-, hnone⟩
      rw [show p.entryAt? e.handle.index.toNat = some e from hd.found] at hnone
      cases hnone
    rw [hd.allocator, Allocator.pool_free hcur, List.nodup_append]
    refine ⟨hp.nodup, by simp, ?_⟩
    intro i hi j hj heq
    rw [List.mem_singleton.mp hj] at heq
    exact hnot (heq ▸ hi)
  case pooled =>
    intro i
    rw [hd.allocator, Allocator.pool_free hcur, Allocator.current?_free hcur, hd.entries]
    by_cases hih : i = e.handle.index
    · subst hih
      simp [Handle.slot]
    · have hne : i.toNat ≠ e.handle.slot := fun heq => hih (UInt32.toNat_inj.mp heq)
      simp [hih, hne, hp.pooled]
  case rows =>
    intro i
    rw [hd.rows, hd.entries]
    split
    · rfl
    · exact hp.rows i
  case ascending =>
    intro i r hr
    rw [hd.rows] at hr
    split at hr
    · cases hr
    · exact hp.ascending hr
  case bindings =>
    have := hp.bindings
    have := hd.bindings
    have := hd.occupied
    omega
  case filled =>
    have := hp.filled
    have := hd.filled
    have := hd.occupied
    omega
  case counted =>
    have := hp.counted
    have := hd.counted
    have := hd.filled
    omega

theorem Reshaped.present_slot {p q : Population} {h row row'} (hs : Reshaped p h row row' q) :
    p.rowAt? h.slot = some row ∧ row.handle = h :=
  World.row?_eq_some_iff.mp hs.present

theorem Reshaped.consistent {p q : Population} {h row row'} (hs : Reshaped p h row row' q)
    (hp : p.Consistent) : q.Consistent := by
  obtain ⟨hrow, hhandle⟩ := hs.present_slot
  have hentry : ∀ i, q.entryAt? i = p.entryAt? i := fun i => by rw [entryAt?, hs.registry]; rfl
  constructor
  case placed => exact fun he => hp.placed ((hentry _).symm.trans he)
  case current =>
    rw [hs.registry]
    exact fun he => hp.current ((hentry _).symm.trans he)
  case bound => exact fun he => hp.bound ((hentry _).symm.trans he)
  case mapped =>
    rw [hs.registry]
    exact fun he => hp.mapped ((hentry _).symm.trans he)
  case entered =>
    rw [hs.registry]
    intro id h' hid
    rw [hentry]
    exact hp.entered hid
  case nodup => exact hs.registry ▸ hp.nodup
  case pooled =>
    intro i
    rw [hs.registry, hentry]
    exact hp.pooled i
  case rows =>
    intro i
    rw [hs.rows, hentry, ← hp.rows]
    split
    · rename_i hi
      rw [hi, hrow, Option.map_some, Option.map_some, hs.handle, hhandle]
    · rfl
  case ascending =>
    intro i r hr
    rw [hs.rows] at hr
    split at hr
    · rw [← Option.some.inj hr]
      exact hs.ascending (hp.ascending hrow)
    · exact hp.ascending hr
  case bindings => rw [hs.registry, hp.bindings]
  case filled => rw [hs.filled, hs.registry, hp.filled]
  case counted => rw [hs.counted, hs.filled, hp.counted]

/-- A change keeps a population consistent as long as slot numbers last. -/
theorem Change.consistent {p q : Population} {ss : List Signal} (hc : Change p ss q)
    (hcap : q.capacity ≤ 2 ^ 32) (hp : p.Consistent) : q.Consistent := by
  cases hc with
  | quiet h => exact h.consistent hp
  | attach h => exact h.consistent hp hcap
  | detach h => exact h.consistent hp
  | add h _ => exact h.consistent hp
  | remove h _ => exact h.consistent hp

/-- Slots that were allocated stay allocated. -/
theorem Change.capacity_le {p q : Population} {ss : List Signal} (hc : Change p ss q) :
    p.capacity ≤ q.capacity := by
  cases hc with
  | quiet h => exact Nat.le_of_eq (by rw [capacity, capacity, h.allocator])
  | attach h =>
    have hle := p.registry.allocator.capacity_le_alloc
    rw [h.issued] at hle
    exact hle
  | detach h =>
    exact Nat.le_of_eq (by rw [capacity, capacity, h.allocator, Allocator.capacity_free])
  | add h _ => exact Nat.le_of_eq (by rw [capacity, capacity, h.registry])
  | remove h _ => exact Nat.le_of_eq (by rw [capacity, capacity, h.registry])

/-! ## Series of changes -/

/-- What a change from one population to another raised. -/
def raised (p q : Population) (ss : List Signal) : List Raised :=
  ss.map fun s => ⟨s, p.world, q.world⟩

@[simp] theorem map_signal_raised (p q : Population) (ss : List Signal) :
    (raised p q ss).map Raised.signal = ss := by
  rw [raised, List.map_map]
  exact List.map_id ss

/-- A series of changes, with all that it raised, in order. -/
inductive Trace : Population → List Raised → Population → Prop
  | nil (p) : Trace p [] p
  | cons {p q r ss es} : Change p ss q → Trace q es r → Trace p (raised p q ss ++ es) r

theorem Trace.append {p q r : Population} {es fs : List Raised} (h : Trace p es q)
    (h' : Trace q fs r) : Trace p (es ++ fs) r := by
  induction h with
  | nil => exact h'
  | cons hc _ ih =>
    rw [List.append_assoc]
    exact .cons hc (ih h')

theorem Trace.single {p q : Population} {ss : List Signal} (h : Change p ss q) :
    Trace p (raised p q ss) q := by
  simpa using Trace.cons h (.nil q)

theorem Trace.capacity_le {p q : Population} {es : List Raised} (h : Trace p es q) :
    p.capacity ≤ q.capacity := by
  induction h with
  | nil => exact Nat.le_refl _
  | cons hc _ ih => exact Nat.le_trans hc.capacity_le ih

/-- A series of changes keeps a population consistent as long as slot numbers last. -/
theorem Trace.consistent {p q : Population} {es : List Raised} (h : Trace p es q)
    (hcap : q.capacity ≤ 2 ^ 32) (hp : p.Consistent) : q.Consistent := by
  induction h with
  | nil => exact hp
  | cons hc ht ih => exact ih hcap (hc.consistent (Nat.le_trans ht.capacity_le hcap) hp)

/-- The population with nobody in it. -/
theorem consistent_empty : Consistent ⟨{}, {}⟩ where
  placed he := by simp [entryAt?] at he
  current he := by simp [entryAt?] at he
  bound he := by simp [entryAt?] at he
  mapped he := by simp [entryAt?] at he
  entered hid := by simp [Registry.handleOf?] at hid
  nodup := List.nodup_nil
  pooled i := by simp [Allocator.current?]
  rows i := by simp [entryAt?, rowAt?]
  ascending hr := by simp [rowAt?] at hr
  bindings := rfl
  filled := rfl
  counted := rfl

end Population

end Tether
