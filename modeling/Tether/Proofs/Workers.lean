import Tether.Proofs.Placement

/-!
# Workers

Several workers may share a pass over all entities. A `Crew` is the workers in the middle of
their work, each with the entities that it has still to visit and its report so far, and a run of
it (`Crew.run`) lets the workers visit their entities in any order of turns.

A visit to an entity sees and changes no more than the row of the entity and the host object that
it is bound to (`Coordinator.visit_local`), and no two entities share an object if an object is
always named by the same identity (`Coordinator.Unshared`). So wherever the turns lead,
`Coordinator.crew_finished` says that the crew ends where visiting the entities one after another
ends : the same world, the same host objects and the same report.
-/

set_option linter.unusedSectionVars false

namespace Tether

variable {ο σ : Type} [HostObject ο]

/-! ## The journal has no part in a pass -/

namespace Pass

/-- The pass with another journal. -/
def journaled (p : Pass ο) (j : Journal) : Pass ο := { p with journal := j }

theorem agree_journaled (p : Pass ο) (j : Journal) (id : ComponentId) (base : Value) :
    (p.journaled j).agree id base = (p.agree id base).journaled j := by
  simp only [agree, journaled]
  cases p.row.cell? id <;> rfl

theorem pull_journaled (p : Pass ο) (j : Journal) (flow : Direction) (id : ComponentId)
    (cell : Cell) (target : Value) :
    (p.journaled j).pull flow id cell target =
      ((p.pull flow id cell target).1, (p.pull flow id cell target).2.journaled j) := by
  unfold pull
  split
  · rfl
  · split <;> rfl

theorem send_journaled (p : Pass ο) (j : Journal) (flow : Direction) (handle : Handle)
    (capability : Capability) (hostValue target : Value) :
    (p.journaled j).send flow handle capability hostValue target =
      ((p.send flow handle capability hostValue target).1,
        (p.send flow handle capability hostValue target).2.journaled j) := by
  unfold send
  split
  · rfl
  · split
    · rw [show (p.journaled j).object = p.object from rfl]
      generalize HostObject.write p.object capability target = x
      obtain ⟨result, object⟩ := x
      cases result <;> rfl
    · rfl

/-- The pass once a divergence was told of and counted. -/
def diverged (p : Pass ο) (handle : Handle) (b : Binding) (hostValue : Value) (cell : Cell) :
    Pass ο :=
  { p with
    report := { p.report with
      conflicts := if b.direction = .bidirectional then p.report.conflicts + 1
        else p.report.conflicts }
    journal := p.journal.note
      (.synchronizing b.capability handle hostValue cell.value (target b hostValue cell)) }

/-- The pass once both sides were brought to a target. -/
def reached (p : Pass ο) (flow : Direction) (handle : Handle) (b : Binding) (hostValue : Value)
    (cell : Cell) (target : Value) : Pass ο :=
  let (pulled, p) := p.pull flow b.component cell target
  let (sent, p) := p.send flow handle b.capability hostValue target
  if pulled && sent then p.agree b.component target else p

theorem settle_eq (p : Pass ο) (flow : Direction) (handle : Handle) (b : Binding)
    (hostValue : Value) (cell : Cell) :
    p.settle flow handle b hostValue cell =
      (p.diverged handle b hostValue cell).reached flow handle b hostValue cell
        (target b hostValue cell) := rfl

theorem reached_journaled (p : Pass ο) (j : Journal) (flow : Direction) (handle : Handle)
    (b : Binding) (hostValue : Value) (cell : Cell) (target : Value) :
    (p.journaled j).reached flow handle b hostValue cell target =
      (p.reached flow handle b hostValue cell target).journaled j := by
  simp only [reached, pull_journaled, send_journaled]
  split
  · exact agree_journaled _ _ _ _
  · rfl

theorem settle_journaled (p : Pass ο) (j : Journal) (flow : Direction) (handle : Handle)
    (b : Binding) (hostValue : Value) (cell : Cell) :
    ∃ j', (p.journaled j).settle flow handle b hostValue cell =
      (p.settle flow handle b hostValue cell).journaled j' := by
  rw [settle_eq, settle_eq]
  exact ⟨_, reached_journaled (p.diverged handle b hostValue cell) _ _ _ _ _ _ _⟩

theorem visit_journaled (p : Pass ο) (j : Journal) (direction : Direction) (handle : Handle)
    (b : Binding) :
    ∃ j', visit direction handle (p.journaled j) b =
      (visit direction handle p b).journaled j' := by
  unfold visit
  rw [show (p.journaled j).row = p.row from rfl, show (p.journaled j).object = p.object from rfl]
  split
  · split
    · generalize HostObject.read p.object b.capability = x
      obtain ⟨result, object⟩ := x
      cases result with
      | error source => exact ⟨j, rfl⟩
      | ok hostValue =>
        dsimp only
        split
        · exact ⟨j, agree_journaled { p with object } j _ _⟩
        · exact settle_journaled { p with object } j _ _ _ _ _
    · exact ⟨j, rfl⟩
  · exact ⟨j, rfl⟩

end Pass

theorem Table.synchronize_journaled (t : Table) (direction : Direction) (handle : Handle)
    (object : ο) (row : Row) (j j' : Journal) :
    ∃ k, t.synchronize direction handle object row j' =
      (t.synchronize direction handle object row j).journaled k := by
  have key (bs : List Binding) (p : Pass ο) (j : Journal) :
      ∃ k, bs.foldl (Pass.visit direction handle) (p.journaled j) =
        (bs.foldl (Pass.visit direction handle) p).journaled k := by
    induction bs generalizing p j with
    | nil => exact ⟨j, rfl⟩
    | cons b bs ih =>
      obtain ⟨j', hone⟩ := p.visit_journaled j direction handle b
      rw [List.foldl_cons, List.foldl_cons, hone]
      exact ih _ _
  exact key t.bindings { object, row, report := { entities := 1 }, journal := j } j'

/-! ## What a visit sees and changes -/

theorem Hosts.get?_putBack (hosts : Hosts ο) (ref : HostRef) (object : ο) (a : Nat) :
    (hosts.putBack ref object).cells.get? a =
      if a = ref.address then
        (hosts.cells.get? a).bind fun cell =>
          if cell.owned || HostObject.keepsItself object then some { cell with object } else none
      else hosts.cells.get? a := by
  by_cases ha : a = ref.address
  · subst ha
    unfold putBack settle
    cases hc : hosts.cells.get? ref.address with
    | none => simp [hc]
    | some cell => dsimp only; split <;> simp_all [Slots.get?_put, Slots.get?_clear]
  · rw [if_neg ha]
    unfold putBack settle
    split
    · dsimp only
      split
      · rw [Slots.get?_put, if_neg ha]
      · rw [Slots.get?_clear, if_neg ha]
    · rfl

theorem Hosts.created_putBack (hosts : Hosts ο) (ref : HostRef) (object : ο) :
    (hosts.putBack ref object).created = hosts.created := by
  unfold putBack settle
  split <;> rfl

namespace Coordinator

/-- The pass over an entity with its host object, if it is bound and the object exists. -/
def pass? (c : Coordinator ο σ) (direction : Direction) (h : Handle) :
    Option (HostRef × Pass ο) :=
  match c.registry.resolve? h, c.world.row? h with
  | some host, some row =>
    (c.hosts.find? host).map fun object =>
      (host, c.table.synchronize direction row.handle object row {})
  | _, _ => none

theorem pass?_eq_some {c : Coordinator ο σ} {direction : Direction} {h : Handle}
    {x : HostRef × Pass ο} (hx : c.pass? direction h = some x) :
    c.registry.resolve? h = some x.1 ∧ x.2.row.handle = h ∧ c.hosts.alive x.1 = true := by
  unfold pass? at hx
  split at hx
  · rename_i host row hhost hrow
    obtain ⟨object, hobject, rfl⟩ := Option.map_eq_some_iff.mp hx
    refine ⟨hhost, ?_, ?_⟩
    · exact (c.table.alike_synchronize direction row.handle object row {}).handle.trans
        (World.row?_eq_some_iff.mp hrow).2
    · obtain ⟨cell, hcell, -⟩ := Option.map_eq_some_iff.mp hobject
      exact Option.isSome_of_eq_some hcell
  · cases hx

/-- A visit is the pass over the entity, if there is one. -/
theorem visit_eq (c : Coordinator ο σ) (direction : Direction) (report : SyncReport)
    (h : Handle) :
    ∃ j, visit direction (report, c) h =
      match c.pass? direction h with
      | some (host, p) => (report.merge p.report,
          { c with world := c.world.store p.row, journal := j }.setHosts
            (c.hosts.putBack host p.object))
      | none => (report, c) := by
  cases hhost : c.registry.resolve? h with
  | none => exact ⟨{}, by simp only [visit, pass?, hhost]⟩
  | some host =>
    cases hrow : c.world.row? h with
    | none => exact ⟨{}, by simp only [visit, pass?, hhost, hrow]⟩
    | some row =>
      cases hobject : c.hosts.find? host with
      | none => exact ⟨{}, by simp only [visit, pass?, hhost, hrow, hobject, Option.map_none]⟩
      | some object =>
        obtain ⟨k, hk⟩ :=
          c.table.synchronize_journaled direction row.handle object row {} c.journal
        refine ⟨k, ?_⟩
        simp only [visit, pass?, hhost, hrow, hobject, Option.map_some, syncRow, hk]
        rfl

/-- To a visit of an entity two states look the same. -/
structure AlikeTo (h : Handle) (c e : Coordinator ο σ) : Prop where
  registry : e.registry = c.registry
  table : e.table = c.table
  row : e.world.rows.get? h.slot = c.world.rows.get? h.slot
  object : ∀ host, c.registry.resolve? h = some host →
    e.hosts.cells.get? host.address = c.hosts.cells.get? host.address

theorem AlikeTo.pass?_eq {h : Handle} {c e : Coordinator ο σ} (ha : AlikeTo h c e)
    (direction : Direction) : e.pass? direction h = c.pass? direction h := by
  have hrow : e.world.row? h = c.world.row? h := by rw [World.row?, World.row?, ha.row]
  unfold pass?
  rw [ha.registry, ha.table, hrow]
  split
  · rename_i host row hhost _
    rw [Hosts.find?, Hosts.find?, ha.object host hhost]
  · rfl

/-- What a visit of an entity does depends on what it sees, and the rest stays as it is. -/
structure VisitLocal (direction : Direction) (h : Handle) (c e : Coordinator ο σ)
    (r : SyncReport) : Prop where
  report : (visit direction (r, e) h).1 = r.merge (visit direction ({}, c) h).1
  row : (visit direction (r, e) h).2.world.rows.get? h.slot =
    (visit direction ({}, c) h).2.world.rows.get? h.slot
  object : ∀ host, c.registry.resolve? h = some host →
    (visit direction (r, e) h).2.hosts.cells.get? host.address =
      (visit direction ({}, c) h).2.hosts.cells.get? host.address
  otherRow : ∀ i, i ≠ h.slot →
    (visit direction (r, e) h).2.world.rows.get? i = e.world.rows.get? i
  otherObject : ∀ a, (∀ host, c.registry.resolve? h = some host → host.address ≠ a) →
    (visit direction (r, e) h).2.hosts.cells.get? a = e.hosts.cells.get? a
  size : (visit direction (r, e) h).2.world.size = e.world.size
  created : (visit direction (r, e) h).2.hosts.created = e.hosts.created
  rest : ∃ j, (visit direction (r, e) h).2 =
    { e with
      world := (visit direction (r, e) h).2.world
      journal := j }.setHosts (visit direction (r, e) h).2.hosts

theorem visit_local {h : Handle} {c e : Coordinator ο σ} (ha : AlikeTo h c e)
    (direction : Direction) (report : SyncReport) : VisitLocal direction h c e report := by
  obtain ⟨j, hc⟩ := c.visit_eq direction {} h
  obtain ⟨k, he⟩ := e.visit_eq direction report h
  rw [ha.pass?_eq direction] at he
  cases hpass : c.pass? direction h with
  | none =>
    rw [hpass] at hc he
    refine ⟨?_, ?_, ?_, ?_, ?_, ?_, ?_, ?_⟩
    · rw [hc, he, SyncReport.merge_empty]
    · rw [hc, he]
      exact ha.row
    · intro host hhost
      rw [hc, he]
      exact ha.object host hhost
    · intro i _
      rw [he]
    · intro a _
      rw [he]
    · rw [he]
    · rw [he]
    · exact ⟨e.journal, by rw [he]; rfl⟩
  | some x =>
    obtain ⟨host, p⟩ := x
    obtain ⟨hhost, hhandle, -⟩ := pass?_eq_some hpass
    dsimp only at hhost hhandle
    rw [hpass] at hc he
    have hrow : e.world.row? h = c.world.row? h := by rw [World.row?, World.row?, ha.row]
    refine ⟨?_, ?_, ?_, ?_, ?_, ?_, ?_, ?_⟩
    · rw [hc, he]
      exact congrArg report.merge p.report.empty_merge.symm
    · rw [hc, he]
      show (e.world.store p.row).rows.get? h.slot = (c.world.store p.row).rows.get? h.slot
      simp only [World.store, World.get?_rows_modify, hhandle, hrow, ha.row]
    · intro host' hhost'
      obtain rfl : host = host' := Option.some.inj (hhost.symm.trans hhost')
      rw [hc, he]
      show (e.hosts.putBack host p.object).cells.get? _ =
        (c.hosts.putBack host p.object).cells.get? _
      rw [Hosts.get?_putBack, Hosts.get?_putBack, ha.object host hhost]
    · intro i hi
      rw [he]
      show (e.world.store p.row).rows.get? i = _
      rw [World.store, World.get?_rows_modify, if_neg (fun hand => hi (hhandle ▸ hand.1))]
    · intro a hne
      rw [he]
      show (e.hosts.putBack host p.object).cells.get? a = _
      rw [Hosts.get?_putBack, if_neg (fun heq => hne host hhost heq.symm)]
    · rw [he]
      exact World.size_modify _ _ _
    · rw [he]
      exact Hosts.created_putBack _ _ _
    · exact ⟨k, by rw [he]; rfl⟩

/-! ## Visits in any order -/

/-- Different entities have different objects. -/
def Apart (c : Coordinator ο σ) : Prop :=
  ∀ h h' host host', c.registry.resolve? h = some host → c.registry.resolve? h' = some host' →
    host.address = host'.address → h = h'

/-- `e` is where visits of the entities of a list lead from `c`, in whatever order. -/
structure Toured (direction : Direction) (c : Coordinator ο σ) (hs : List Handle)
    (e : Coordinator ο σ) : Prop where
  row : ∀ h ∈ hs, e.world.rows.get? h.slot =
    (visit direction ({}, c) h).2.world.rows.get? h.slot
  object : ∀ h ∈ hs, ∀ host, c.registry.resolve? h = some host →
    e.hosts.cells.get? host.address = (visit direction ({}, c) h).2.hosts.cells.get? host.address
  otherRow : ∀ i, (∀ h ∈ hs, i ≠ h.slot) → e.world.rows.get? i = c.world.rows.get? i
  otherObject : ∀ a,
    (∀ h ∈ hs, ∀ host, c.registry.resolve? h = some host → host.address ≠ a) →
      e.hosts.cells.get? a = c.hosts.cells.get? a
  size : e.world.size = c.world.size
  created : e.hosts.created = c.hosts.created
  rest : ∃ j, e = { c with world := e.world, journal := j }.setHosts e.hosts

theorem Toured.nil (direction : Direction) (c : Coordinator ο σ) : Toured direction c [] c where
  row := by simp
  object := by simp
  otherRow _ _ := rfl
  otherObject _ _ := rfl
  size := rfl
  created := rfl
  rest := ⟨c.journal, rfl⟩

section Touring

variable {direction : Direction} {c : Coordinator ο σ}

theorem slot_ne {h h' : Handle} (hb : c.registry.isBound h = true)
    (hb' : c.registry.isBound h' = true) (hne : h ≠ h') : h.slot ≠ h'.slot := by
  obtain ⟨e, hf, -⟩ := Registry.isBound_iff.mp hb
  obtain ⟨e', hf', -⟩ := Registry.isBound_iff.mp hb'
  obtain ⟨hget, rfl⟩ := Registry.find?_eq_some_iff.mp hf
  obtain ⟨hget', rfl⟩ := Registry.find?_eq_some_iff.mp hf'
  intro hslot
  rw [hslot, hget'] at hget
  exact hne (congrArg Entry.handle (Option.some.inj hget)).symm

variable (hapart : c.Apart)
include hapart

/-- An entity that was not visited yet looks as it did at first. -/
theorem Toured.alikeTo {hs : List Handle} {e : Coordinator ο σ} (ht : Toured direction c hs e)
    (hbound : ∀ h ∈ hs, c.registry.isBound h = true) {h : Handle}
    (hb : c.registry.isBound h = true) (hnew : h ∉ hs) : AlikeTo h c e := by
  obtain ⟨j, hrest⟩ := ht.rest
  refine ⟨by rw [hrest]; rfl, by rw [hrest]; rfl, ?_, fun host hhost => ?_⟩
  · exact ht.otherRow _ fun h' hin => slot_ne hb (hbound h' hin) fun heq => hnew (heq ▸ hin)
  · refine ht.otherObject _ fun h' hin host' hhost' haddr => ?_
    exact hnew (hapart h' h host' host hhost' hhost haddr ▸ hin)

/-- One more entity is visited. -/
theorem Toured.visit {hs : List Handle} {e : Coordinator ο σ} (ht : Toured direction c hs e)
    (hbound : ∀ h ∈ hs, c.registry.isBound h = true) {h : Handle}
    (hb : c.registry.isBound h = true) (hnew : h ∉ hs) (report : SyncReport) :
    Toured direction c (hs ++ [h]) (visit direction (report, e) h).2 := by
  have hlocal := visit_local (ht.alikeTo hapart hbound hb hnew) direction report
  have hslot : ∀ h' ∈ hs, h'.slot ≠ h.slot := fun h' hin =>
    slot_ne (hbound h' hin) hb fun heq => hnew (heq ▸ hin)
  have haddr : ∀ h' ∈ hs, ∀ host host', c.registry.resolve? h = some host →
      c.registry.resolve? h' = some host' → host.address ≠ host'.address :=
    fun h' hin host host' hhost hhost' heq =>
      hnew (hapart h' h host' host hhost' hhost heq.symm ▸ hin)
  constructor
  · intro h' hin
    rcases List.mem_append.mp hin with hin | hin
    · rw [hlocal.otherRow _ (hslot h' hin)]
      exact ht.row h' hin
    · rw [List.mem_singleton.mp hin]
      exact hlocal.row
  · intro h' hin host' hhost'
    rcases List.mem_append.mp hin with hin | hin
    · rw [hlocal.otherObject _ fun host hhost => haddr h' hin host host' hhost hhost']
      exact ht.object h' hin host' hhost'
    · obtain rfl := List.mem_singleton.mp hin
      exact hlocal.object host' hhost'
  · intro i hi
    rw [hlocal.otherRow i (hi h (by simp))]
    exact ht.otherRow i fun h' hin => hi h' (by simp [hin])
  · intro a ha
    rw [hlocal.otherObject a fun host hhost => ha h (by simp) host hhost]
    exact ht.otherObject a fun h' hin => ha h' (by simp [hin])
  · rw [hlocal.size, ht.size]
  · rw [hlocal.created, ht.created]
  · obtain ⟨j, hrest⟩ := ht.rest
    obtain ⟨k, hstep⟩ := hlocal.rest
    refine ⟨k, ?_⟩
    rw [hstep]
    generalize (Coordinator.visit direction (report, e) h).2 = d
    rw [hrest]
    rfl

omit hapart in
/-- The order of the visits does not matter. -/
theorem Toured.unique {hs hs' : List Handle} {e e' : Coordinator ο σ}
    (ht : Toured direction c hs e) (ht' : Toured direction c hs' e')
    (hmem : ∀ h, h ∈ hs ↔ h ∈ hs') : ∃ j, e = { e' with journal := j } := by
  have hworld : e.world = e'.world := by
    have hrows : e.world.rows = e'.world.rows := by
      refine Slots.ext fun i => ?_
      by_cases hi : ∃ h ∈ hs, i = h.slot
      · obtain ⟨h, hin, rfl⟩ := hi
        rw [ht.row h hin, ht'.row h ((hmem h).mp hin)]
      · rw [ht.otherRow i fun h hin heq => hi ⟨h, hin, heq⟩,
          ht'.otherRow i fun h hin heq => hi ⟨h, (hmem h).mpr hin, heq⟩]
    have hsize : e.world.size = e'.world.size := ht.size.trans ht'.size.symm
    generalize e.world = w at hrows hsize
    generalize e'.world = w' at hrows hsize
    cases w
    cases w'
    exact congr (congrArg World.mk hrows) hsize
  have hhosts : e.hosts = e'.hosts := by
    have hcells : e.hosts.cells = e'.hosts.cells := by
      refine Slots.ext fun a => ?_
      by_cases ha : ∃ h ∈ hs, ∃ host, c.registry.resolve? h = some host ∧ host.address = a
      · obtain ⟨h, hin, host, hhost, rfl⟩ := ha
        rw [ht.object h hin host hhost, ht'.object h ((hmem h).mp hin) host hhost]
      · rw [ht.otherObject a fun h hin host hhost heq => ha ⟨h, hin, host, hhost, heq⟩,
          ht'.otherObject a fun h hin host hhost heq =>
            ha ⟨h, (hmem h).mpr hin, host, hhost, heq⟩]
    have hcreated : e.hosts.created = e'.hosts.created := ht.created.trans ht'.created.symm
    generalize e.hosts = x at hcells hcreated
    generalize e'.hosts = y at hcells hcreated
    cases x
    cases y
    exact congr (congrArg Hosts.mk hcells) hcreated
  obtain ⟨j, he⟩ := ht.rest
  obtain ⟨j', he'⟩ := ht'.rest
  rw [hworld, hhosts] at he
  generalize e'.world = w at he he'
  generalize e'.hosts = x at he he'
  subst he he'
  exact ⟨j, rfl⟩

end Touring

/-- The report on entities that are all visited as they are at first. -/
def told (direction : Direction) (c : Coordinator ο σ) (hs : List Handle) : SyncReport :=
  hs.foldl (fun r h => r.merge (visit direction ({}, c) h).1) {}

section Told

variable (direction : Direction) (c : Coordinator ο σ)

theorem foldl_told (hs : List Handle) (r : SyncReport) :
    hs.foldl (fun r h => r.merge (visit direction ({}, c) h).1) r =
      r.merge (told direction c hs) := by
  induction hs generalizing r with
  | nil => exact r.merge_empty.symm
  | cons h hs ih =>
    show hs.foldl _ _ = r.merge (hs.foldl _ (SyncReport.merge {} (visit direction ({}, c) h).1))
    rw [ih, ih, SyncReport.empty_merge, SyncReport.merge_assoc]

theorem told_cons (h : Handle) (hs : List Handle) :
    told direction c (h :: hs) = (visit direction ({}, c) h).1.merge (told direction c hs) := by
  rw [← foldl_told, ← (visit direction ({}, c) h).1.empty_merge]
  rfl

theorem told_append (hs hs' : List Handle) :
    told direction c (hs ++ hs') = (told direction c hs).merge (told direction c hs') := by
  rw [told, List.foldl_append, foldl_told]
  rfl

theorem told_concat (hs : List Handle) (h : Handle) :
    told direction c (hs ++ [h]) = (told direction c hs).merge (visit direction ({}, c) h).1 := by
  rw [told_append, told_cons, show told direction c [] = {} from rfl, SyncReport.merge_empty]

/-- Reports on shares are joined to the report on all. -/
theorem foldl_merge_told (shares : List (List Handle)) (r : SyncReport) :
    (shares.map (told direction c)).foldl SyncReport.merge r =
      r.merge (told direction c shares.flatten) := by
  induction shares generalizing r with
  | nil => exact r.merge_empty.symm
  | cons share shares ih =>
    rw [List.map_cons, List.foldl_cons, ih, List.flatten_cons, told_append, SyncReport.merge_assoc]

end Told

/-- Entities that are visited one after another. -/
theorem Toured.foldl {direction : Direction} {c : Coordinator ο σ} (hapart : c.Apart)
    {hs rest : List Handle} {e : Coordinator ο σ} (ht : Toured direction c hs e)
    (hbound : ∀ h ∈ hs ++ rest, c.registry.isBound h = true) (hnd : (hs ++ rest).Nodup)
    (r : SyncReport) :
    Toured direction c (hs ++ rest) (rest.foldl (Coordinator.visit direction) (r, e)).2 ∧
      (rest.foldl (Coordinator.visit direction) (r, e)).1 = r.merge (told direction c rest) := by
  induction rest generalizing hs e r with
  | nil => exact ⟨by simpa using ht, r.merge_empty.symm⟩
  | cons h rest ih =>
    have hold : ∀ h' ∈ hs, c.registry.isBound h' = true := fun h' hin => hbound h' (by simp [hin])
    have hb : c.registry.isBound h = true := hbound h (by simp)
    have hnew : h ∉ hs := fun hin =>
      (List.nodup_append.mp hnd).2.2 h hin h (by simp) rfl
    have hone := (visit_local (ht.alikeTo hapart hold hb hnew) direction r).report
    have hmore := ih (ht.visit hapart hold hb hnew r) (by simpa using hbound) (by simpa using hnd)
      (Coordinator.visit direction (r, e) h).1
    rw [List.foldl_cons]
    refine ⟨by simpa using hmore.1, hmore.2.trans ?_⟩
    rw [hone, SyncReport.merge_assoc, told_cons]

/-! ## Crews -/

end Coordinator

/-- A worker with its report so far and the entities that it has still to visit. -/
structure Worker where
  report : SyncReport := {}
  todo : List Handle

/-- Workers that share a pass, in the middle of their work. -/
structure Crew (ο σ : Type) where
  workers : List Worker
  state : Coordinator ο σ
  /-- The entities over which a pass was run so far, in the order of time. -/
  passes : List Handle := []

namespace Crew

/-- It is the turn of a worker, which visits the next of its entities. -/
def turn (direction : Direction) (k : Crew ο σ) (i : Nat) : Crew ο σ :=
  match k.workers[i]? with
  | some ⟨report, h :: todo⟩ =>
    let (report, state) := Coordinator.visit direction (report, k.state) h
    { workers := k.workers.set i ⟨report, todo⟩
      state
      passes := k.passes ++ [h].filter fun h => (k.state.pass? direction h).isSome }
  | _ => k

/-- The workers take their turns in a given order. -/
def run (direction : Direction) (k : Crew ο σ) (turns : List Nat) : Crew ο σ :=
  turns.foldl (turn direction) k

theorem run_concat (direction : Direction) (k : Crew ο σ) (turns : List Nat) (i : Nat) :
    k.run direction (turns ++ [i]) = (k.run direction turns).turn direction i :=
  List.foldl_append

/-- What can come of a turn of a worker. -/
inductive Turned (direction : Direction) (k : Crew ο σ) (i : Nat) : Crew ο σ → Prop
  /-- There is no such worker, or it is done. -/
  | idle (h : ∀ w, k.workers[i]? = some w → w.todo = []) : Turned direction k i k
  /-- Its next entity is not bound any longer, or without a host object. -/
  | skipped {report : SyncReport} {h : Handle} {todo : List Handle}
      (next : k.workers[i]? = some ⟨report, h :: todo⟩) (none : k.state.pass? direction h = none) :
      Turned direction k i { k with workers := k.workers.set i ⟨report, todo⟩ }
  /-- A pass is run over its next entity, which changes the row, the host object and the report of
  the worker. -/
  | passed {report : SyncReport} {h : Handle} {todo : List Handle} {host : HostRef} {p : Pass ο}
      (next : k.workers[i]? = some ⟨report, h :: todo⟩)
      (some : k.state.pass? direction h = some (host, p)) (journal : Journal) :
      Turned direction k i {
        workers := k.workers.set i ⟨report.merge p.report, todo⟩
        state := { k.state with world := k.state.world.store p.row, journal }.setHosts
          (k.state.hosts.putBack host p.object)
        passes := k.passes ++ [h] }

theorem turned_turn (direction : Direction) (k : Crew ο σ) (i : Nat) :
    Turned direction k i (k.turn direction i) := by
  unfold turn
  split
  · rename_i report h todo hi
    obtain ⟨j, hvisit⟩ := k.state.visit_eq direction report h
    rw [hvisit]
    cases hpass : k.state.pass? direction h with
    | none =>
      simp only [List.filter_cons, hpass, Option.isSome_none, Bool.false_eq_true, ↓reduceIte,
        List.filter_nil, List.append_nil]
      exact .skipped hi hpass
    | some x =>
      simp only [List.filter_cons, hpass, Option.isSome_some, ↓reduceIte, List.filter_nil]
      exact .passed hi hpass j
  · rename_i hnone
    refine .idle fun w hw => ?_
    obtain ⟨report, _ | ⟨h, todo⟩⟩ := w
    · rfl
    · exact absurd hw (hnone report h todo)

/-- Nobody has anything left to visit. -/
def Finished (k : Crew ο σ) : Prop := ∀ w ∈ k.workers, w.todo = []

/-- The reports of all workers, joined in the order of their shares. -/
def report (k : Crew ο σ) : SyncReport := (k.workers.map Worker.report).foldl SyncReport.merge {}

/-- Workers that begin with given shares. -/
def start (shares : List (List Handle)) (c : Coordinator ο σ) : Crew ο σ where
  workers := shares.map fun todo => { todo }
  state := c

theorem perm_set {ws : List Worker} {i : Nat} {r : SyncReport} {h : Handle} {todo : List Handle}
    (hi : ws[i]? = some ⟨r, h :: todo⟩) (r' : SyncReport) :
    (h :: (ws.set i ⟨r', todo⟩).flatMap Worker.todo).Perm (ws.flatMap Worker.todo) := by
  induction ws generalizing i with
  | nil => simp at hi
  | cons w ws ih =>
    cases i with
    | zero =>
      rw [List.getElem?_cons_zero, Option.some.injEq] at hi
      subst hi
      exact .refl _
    | succ i =>
      rw [List.getElem?_cons_succ] at hi
      rw [List.set_cons_succ, List.flatMap_cons, List.flatMap_cons]
      exact List.perm_middle.symm.trans ((ih hi).append_left _)

/-- What holds of a crew at work : some entities were visited, the others are still to be
visited, and each worker has told of what it visited. -/
structure Underway (direction : Direction) (c : Coordinator ο σ) (shares : List (List Handle))
    (hs : List Handle) (k : Crew ο σ) : Prop where
  toured : c.Toured direction hs k.state
  left : (hs ++ k.workers.flatMap Worker.todo).Perm shares.flatten
  count : k.workers.length = shares.length
  reports : ∀ {i : Nat} {w : Worker} {share}, k.workers[i]? = some w → shares[i]? = some share →
    ∃ done, share = done ++ w.todo ∧ w.report = c.told direction done
  passes : k.passes = hs.filter fun h => (c.pass? direction h).isSome

theorem underway_start (direction : Direction) (c : Coordinator ο σ)
    (shares : List (List Handle)) : Underway direction c shares [] (start shares c) where
  toured := .nil direction c
  left := by simp [start, List.flatMap_map, List.flatMap_id']
  count := by simp [start]
  reports {i w share} hw hshare := by
    rw [start, List.getElem?_map, hshare] at hw
    cases hw
    exact ⟨[], rfl, rfl⟩
  passes := rfl

section Working

variable {direction : Direction} {c : Coordinator ο σ} {shares : List (List Handle)}
  (hapart : c.Apart) (hbound : ∀ h ∈ shares.flatten, c.registry.isBound h = true)
  (hnd : shares.flatten.Nodup)
include hapart hbound hnd

theorem Underway.turn {hs : List Handle} {k : Crew ο σ} (hu : Underway direction c shares hs k)
    (i : Nat) : ∃ hs', Underway direction c shares hs' (k.turn direction i) := by
  unfold Crew.turn
  split
  · rename_i report h todo hi
    have hperm := perm_set hi report
    have hin : h ∈ k.workers.flatMap Worker.todo := hperm.subset List.mem_cons_self
    have hvisited : ∀ h' ∈ hs, c.registry.isBound h' = true := fun h' hin =>
      hbound h' (hu.left.subset (List.mem_append_left _ hin))
    have hb : c.registry.isBound h = true :=
      hbound h (hu.left.subset (List.mem_append_right _ hin))
    have hnew : h ∉ hs := fun hold =>
      (List.nodup_append.mp (hu.left.nodup_iff.mpr hnd)).2.2 h hold h hin rfl
    have halike := hu.toured.alikeTo hapart hvisited hb hnew
    refine ⟨hs ++ [h], hu.toured.visit hapart hvisited hb hnew report, ?_, ?_, ?_, ?_⟩
    · have hset := perm_set hi (Coordinator.visit direction (report, k.state) h).1
      rw [List.append_assoc, List.singleton_append]
      exact (hset.append_left hs).trans hu.left
    · rw [List.length_set]
      exact hu.count
    · intro j w share hw hshare
      rw [List.getElem?_set] at hw
      split at hw
      · rename_i hij
        subst hij
        split at hw
        · cases hw
          obtain ⟨done, hdone, htold⟩ := hu.reports hi hshare
          refine ⟨done ++ [h], by simp [hdone], ?_⟩
          rw [Coordinator.told_concat, ← show report = _ from htold]
          exact (Coordinator.visit_local halike direction report).report
        · cases hw
      · exact hu.reports hw hshare
    · rw [List.filter_append, hu.passes]
      simp only [List.filter_cons, List.filter_nil, halike.pass?_eq direction]
  · exact ⟨hs, hu⟩

theorem Underway.run {hs : List Handle} {k : Crew ο σ} (hu : Underway direction c shares hs k)
    (turns : List Nat) : ∃ hs', Underway direction c shares hs' (k.run direction turns) := by
  induction turns generalizing hs k with
  | nil => exact ⟨hs, hu⟩
  | cons i turns ih =>
    obtain ⟨hs', hone⟩ := hu.turn hapart hbound hnd i
    exact ih hone

end Working

/-- A crew that has finished has visited everything, and tells of everything. -/
theorem Underway.finished {direction : Direction} {c : Coordinator ο σ}
    {shares : List (List Handle)} {hs : List Handle} {k : Crew ο σ}
    (hu : Underway direction c shares hs k) (hf : k.Finished) :
    hs.Perm shares.flatten ∧ k.report = c.told direction shares.flatten := by
  have hnone : k.workers.flatMap Worker.todo = [] := List.flatMap_eq_nil_iff.mpr hf
  constructor
  · simpa [hnone] using hu.left
  · have hreports : k.workers.map Worker.report = shares.map (c.told direction) := by
      refine List.ext_getElem (by simp [hu.count]) fun i hi hi' => ?_
      rw [List.length_map] at hi hi'
      obtain ⟨done, hdone, htold⟩ := hu.reports (List.getElem?_eq_getElem hi)
        (List.getElem?_eq_getElem hi')
      rw [hf _ (List.getElem_mem hi), List.append_nil] at hdone
      rw [List.getElem_map, List.getElem_map, hdone, htold]
    rw [report, hreports, Coordinator.foldl_merge_told, SyncReport.empty_merge]

end Crew

/-! ## Passes over all entities -/

/-- Items lie in storage in the order of their slots. -/
theorem Slots.pairwise_toList {α : Type} {s : Slots α} {slot : α → Nat}
    (h : ∀ {i a}, s.get? i = some a → slot a = i) :
    s.toList.Pairwise fun a b => slot a < slot b := by
  refine List.pairwise_map.mpr (List.Pairwise.imp_of_mem ?_ Std.ExtTreeMap.ordered_keys_toList)
  rintro ⟨i, a⟩ ⟨j, b⟩ ha hb hlt
  rw [Std.ExtTreeMap.mem_toList_iff_getElem?_eq_some] at ha hb
  dsimp only
  rw [h ha, h hb]
  exact Nat.compare_eq_lt.mp hlt

namespace Coordinator

/-- An object is always named by the same identity. -/
def Unshared (c : Coordinator ο σ) : Prop :=
  ∀ i j e e', c.registry.entries.get? i = some e → c.registry.entries.get? j = some e' →
    e.host.address = e'.host.address → e.host.id = e'.host.id

theorem unshared_iff {c : Coordinator ο σ} :
    c.Unshared ↔ ∀ e ∈ c.registry.entries.toList, ∀ e' ∈ c.registry.entries.toList,
      e.host.address = e'.host.address → e.host.id = e'.host.id := by
  simp only [Slots.mem_toList]
  constructor
  · rintro h e ⟨i, hi⟩ e' ⟨j, hj⟩
    exact h i j e e' hi hj
  · exact fun h i j e e' he he' => h e ⟨i, he⟩ e' ⟨j, he'⟩

instance (c : Coordinator ο σ) : Decidable c.Unshared := decidable_of_iff _ unshared_iff.symm

/-- The state in which a pass over all entities begins. -/
def synchronizing (c : Coordinator ο σ) : Coordinator ο σ :=
  { c with frame := c.frame.enter .synchronization }

/-- The shares in which a pass over all entities is dealt out. -/
def dealt (c : Coordinator ο σ) : List (List Handle) :=
  if isShared c.settings.sync c.boundRows.length then
    shares ((c.boundRows.length + c.settings.sync.workers.number - 1) /
      c.settings.sync.workers.number) c.boundRows
  else [c.boundRows]

theorem flatten_dealt (c : Coordinator ο σ) : c.dealt.flatten = c.boundRows := by
  unfold dealt
  split
  · exact flatten_shares _ _
  · simp

/-- The workers of a pass over all entities, before their first turn. -/
def crew (c : Coordinator ο σ) : Crew ο σ := .start c.dealt c.synchronizing

/-- Visit the bound rows one after another. -/
def visitAll (c : Coordinator ο σ) (direction : Direction) : SyncReport × Coordinator ο σ :=
  c.boundRows.foldl (visit direction) ({}, c.synchronizing)

theorem visit_merge (direction : Direction) (r : SyncReport) (c : Coordinator ο σ) (h : Handle) :
    visit direction (r, c) h =
      (r.merge (visit direction ({}, c) h).1, (visit direction ({}, c) h).2) := by
  unfold visit
  dsimp only
  split
  · split
    · rw [SyncReport.empty_merge]
    · rw [SyncReport.merge_empty]
  · rw [SyncReport.merge_empty]

theorem foldl_visit_merge (direction : Direction) (hs : List Handle) (r : SyncReport)
    (c : Coordinator ο σ) :
    hs.foldl (visit direction) (r, c) =
      (r.merge (hs.foldl (visit direction) ({}, c)).1,
        (hs.foldl (visit direction) ({}, c)).2) := by
  induction hs generalizing r c with
  | nil => rw [List.foldl_nil, List.foldl_nil, SyncReport.merge_empty]
  | cons h hs ih =>
    rw [List.foldl_cons, List.foldl_cons, visit_merge, ih]
    generalize visit direction ({}, c) h = x
    obtain ⟨r', d⟩ := x
    rw [ih r', SyncReport.merge_assoc]

/-- Work in shares is work on all that was dealt out. -/
theorem foldl_work (direction : Direction) (dealt : List (List Handle))
    (state : SyncReport × Coordinator ο σ) :
    dealt.foldl (work direction) state = dealt.flatten.foldl (visit direction) state := by
  induction dealt generalizing state with
  | nil => rfl
  | cons share dealt ih =>
    obtain ⟨r, c⟩ := state
    rw [List.foldl_cons, ih, List.flatten_cons, List.foldl_append]
    congr 1
    exact (foldl_visit_merge direction share r c).symm

/-- Whatever the number of workers and the threshold, the result is that of visiting the bound
rows one after another. -/
theorem synchronizeAll_eq (c : Coordinator ο σ) (direction : Direction) :
    c.synchronizeAll direction =
      ((c.visitAll direction).1,
        (c.visitAll direction).1.failures.foldl reportSynchronization
          (c.visitAll direction).2) := by
  have hrows : c.synchronizing.boundRows = c.boundRows := rfl
  simp only [synchronizeAll, visitAll]
  split
  · rw [foldl_work, flatten_shares]
    rfl
  · rfl

section Placed

variable {c : Coordinator ο σ} (hp : c.population.Placed)
include hp

theorem apart_of_unshared (hu : c.Unshared) : c.Apart := by
  intro h h' host host' hhost hhost' haddr
  obtain ⟨e, hb, rfl⟩ := Registry.resolve?_eq_some_iff.mp hhost
  obtain ⟨e', hb', rfl⟩ := Registry.resolve?_eq_some_iff.mp hhost'
  obtain ⟨hget, rfl⟩ := Registry.find?_eq_some_iff.mp (Registry.bound_eq_ok_iff.mp hb).1
  obtain ⟨hget', rfl⟩ := Registry.find?_eq_some_iff.mp (Registry.bound_eq_ok_iff.mp hb').1
  have hslot := hp.eq_of_host hget hget' (hu _ _ _ _ hget hget' haddr)
  rw [hslot] at hget
  exact congrArg Entry.handle (Option.some.inj (hget.symm.trans hget'))

theorem pairwise_boundRows : c.boundRows.Pairwise fun a b => a.slot < b.slot := by
  have hrows : c.world.toList.Pairwise fun a b => a.handle.slot < b.handle.slot :=
    Slots.pairwise_toList fun hrow => hp.rows hrow
  have hhandles : (c.world.toList.map Row.handle).Pairwise fun a b => a.slot < b.slot :=
    List.pairwise_map.mpr hrows
  exact hhandles.filter _

theorem mem_boundRows {h : Handle} :
    h ∈ c.boundRows ↔ c.world.contains h = true ∧ c.registry.isBound h = true := by
  unfold boundRows
  rw [List.mem_filter, List.mem_map, World.contains, Option.isSome_iff_exists]
  refine and_congr_left fun _ => ⟨?_, ?_⟩
  · rintro ⟨row, hrow, rfl⟩
    obtain ⟨i, hi⟩ := Slots.mem_toList.mp hrow
    refine ⟨row, World.row?_eq_some_iff.mpr ⟨?_, rfl⟩⟩
    rw [hp.rows hi]
    exact hi
  · rintro ⟨row, hrow⟩
    obtain ⟨hget, hhandle⟩ := World.row?_eq_some_iff.mp hrow
    exact ⟨row, Slots.mem_toList.mpr ⟨_, hget⟩, hhandle⟩

/-- However the workers take turns, in the end all is as if the bound rows had been visited one
after another, and a pass was run once over every bound entity whose object exists. -/
theorem crew_finished (hu : c.Unshared) (direction : Direction) {turns : List Nat}
    (hf : (c.crew.run direction turns).Finished) :
    let k := c.crew.run direction turns
    (k.report = (c.visitAll direction).1 ∧
      ∃ j, k.state = { (c.visitAll direction).2 with journal := j }) ∧
    k.passes.Nodup ∧
      ∀ h, h ∈ k.passes ↔ h ∈ c.boundRows ∧
        ∃ host, c.registry.resolve? h = some host ∧ c.hosts.alive host = true := by
  intro k
  have hapart : c.synchronizing.Apart := apart_of_unshared hp hu
  have hbound : ∀ h ∈ c.dealt.flatten, c.synchronizing.registry.isBound h = true := fun h hin => by
    rw [flatten_dealt] at hin
    exact ((mem_boundRows hp).mp hin).2
  have hnd : c.boundRows.Nodup := by
    refine (pairwise_boundRows hp).imp fun {a b} hlt heq => ?_
    rw [heq] at hlt
    exact Nat.lt_irrefl _ hlt
  obtain ⟨hs, hunder⟩ := (Crew.underway_start direction c.synchronizing c.dealt).run hapart hbound
    ((flatten_dealt c).symm ▸ hnd) turns
  obtain ⟨hperm, hreport⟩ := hunder.finished hf
  rw [flatten_dealt] at hperm hreport hbound
  obtain ⟨hseq, hseqreport⟩ : Toured direction c.synchronizing ([] ++ c.boundRows) _ ∧ _ :=
    (Toured.nil direction c.synchronizing).foldl hapart hbound hnd {}
  rw [List.nil_append] at hseq
  rw [SyncReport.empty_merge] at hseqreport
  refine ⟨⟨hreport.trans hseqreport.symm, ?_⟩, ?_, fun h => ?_⟩
  · exact hunder.toured.unique hseq fun h => hperm.mem_iff
  · show (c.crew.run direction turns).passes.Nodup
    rw [show (c.crew.run direction turns).passes = _ from hunder.passes]
    exact (hperm.nodup_iff.mpr hnd).filter _
  · show h ∈ (c.crew.run direction turns).passes ↔ _
    rw [show (c.crew.run direction turns).passes = _ from hunder.passes, List.mem_filter,
      hperm.mem_iff]
    refine and_congr_right fun hin => ⟨fun hsome => ?_, ?_⟩
    · obtain ⟨x, hx⟩ := Option.isSome_iff_exists.mp hsome
      obtain ⟨hhost, -, halive⟩ := pass?_eq_some hx
      exact ⟨x.1, hhost, halive⟩
    · rintro ⟨host, hhost, halive⟩
      obtain ⟨row, hrow⟩ := Option.isSome_iff_exists.mp ((mem_boundRows hp).mp hin).1
      obtain ⟨cell, hcell⟩ := Option.isSome_iff_exists.mp halive
      have hobject : c.hosts.find? host = some cell.object := by rw [Hosts.find?, hcell]; rfl
      simp [pass?, show c.synchronizing.registry = c.registry from rfl, hhost,
        show c.synchronizing.world = c.world from rfl, hrow,
        show c.synchronizing.hosts = c.hosts from rfl, hobject]

end Placed

end Coordinator

end Tether
