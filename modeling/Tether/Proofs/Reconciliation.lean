import Tether.Proofs.Agreement
import Tether.Proofs.Arrivals

/-!
# Reconciliation

What a pass makes of the two sides of a binding that shares with no other is
`Binding.reconciled`, whatever they hold, something that is not a number included
(`Table.reconciled_synchronize`). A pass in both directions ends with sides that match
(`Binding.meets_reconciled`) : they agree, or they are the very same value, as two values may be
that agree with nothing. The side that a policy lets win keeps its value to the bit.

Host objects that are bags of properties refuse nothing, so a pass over them has no failures
(`Pass.smooth_foldl`), and a pass over all entities reconciles each of them
(`Coordinator.Holds.synchronizeAll`, `Coordinator.clean_synchronizeAll`). A frame in which
nobody comes or goes comes to that pass (`Coordinator.AtRest.reconciles`).
-/

set_option linter.unusedSectionVars false

namespace Tether

/-! ## Values that match -/

/-- Two values agree, or are the same value. -/
def Value.Matches (v w : Value) : Prop := v.agrees w = true ∨ v = w

theorem Value.Matches.symm {v w : Value} (h : v.Matches w) : w.Matches v :=
  h.imp (fun hagrees => (agrees_comm w v).trans hagrees) Eq.symm

theorem Value.Matches.trans {u v w : Value} (h : u.Matches v) (h' : v.Matches w) : u.Matches w := by
  rcases h with huv | rfl
  · rcases h' with hvw | rfl
    · exact .inl (agrees_trans huv hvw)
    · exact .inl huv
  · exact h'

/-- A value that is brought to a target, if it may be. -/
def Value.brought (may : Bool) (v target : Value) : Value :=
  if v.agrees target then v else if may then target else v

theorem Value.matches_brought {may : Bool} {v target : Value} (h : may = true ∨ v = target) :
    (v.brought may target).Matches target := by
  unfold brought
  split
  · exact .inl ‹_›
  · rcases h with rfl | rfl
    · exact .inr rfl
    · simp [Matches]

/-- A value is not brought away from itself. -/
theorem Value.brought_self (may : Bool) (v : Value) : v.brought may v = v := by
  simp [brought]

/-! ## One binding -/

namespace Binding

/-- What a pass makes of the host's value and the cell of the component, if it lets the binding
flow in a direction. -/
def reconciled (b : Binding) (flow : Direction) (x : Value) (cell : Cell) : Value × Cell :=
  if x.agrees cell.value then (x, { cell with synced := x })
  else
    let target := Pass.target b x cell
    (x.brought flow.writesHost target,
      { value := cell.value.brought flow.readsHost target
        synced :=
          if (cell.value.agrees target || flow.readsHost) && (x.agrees target || flow.writesHost)
          then target else cell.synced })

/-- After a pass in both directions both sides match. -/
theorem meets_reconciled (b : Binding) (x : Value) (cell : Cell) :
    (b.reconciled b.direction x cell).1.Matches (b.reconciled b.direction x cell).2.value := by
  unfold reconciled
  split
  · exact .inl ‹_›
  -- a side that the binding does not write is where the target is taken from
  have hhost : b.direction.writesHost = true ∨ x = Pass.target b x cell := by
    cases hd : b.direction with
    | hostToEcs => exact .inr (by simp [Pass.target, hd])
    | ecsToHost => exact .inl rfl
    | bidirectional => exact .inl rfl
  have hentity : b.direction.readsHost = true ∨ cell.value = Pass.target b x cell := by
    cases hd : b.direction with
    | ecsToHost => exact .inr (by simp [Pass.target, hd])
    | hostToEcs => exact .inl rfl
    | bidirectional => exact .inl rfl
  exact (Value.matches_brought hhost).trans (Value.matches_brought hentity).symm

/-- The host keeps a value that is the target. -/
theorem reconciled_of_host {b : Binding} {x : Value} {cell : Cell} (flow : Direction)
    (h : Pass.target b x cell = x) : (b.reconciled flow x cell).1 = x := by
  unfold reconciled
  split
  · rfl
  · simp only [h, Value.brought_self]

/-- The component keeps a value that is the target. -/
theorem reconciled_of_entity {b : Binding} {x : Value} {cell : Cell} (flow : Direction)
    (h : Pass.target b x cell = cell.value) : (b.reconciled flow x cell).2.value = cell.value := by
  unfold reconciled
  split
  · rfl
  · simp only [h, Value.brought_self]

end Binding

namespace Pass

section Sides

variable {b : Binding} {x : Value} {cell : Cell} {p : Pass PropertyBag}

theorem Sides.pull (hs : Sides b x cell p) (flow : Direction) (target : Value) :
    (p.pull flow b.component cell target).1 = (cell.value.agrees target || flow.readsHost) ∧
      Sides b x { cell with value := cell.value.brought flow.readsHost target }
        (p.pull flow b.component cell target).2 := by
  unfold Pass.pull Value.brought
  split
  · exact ⟨by simp [*], hs⟩
  · split
    · exact ⟨by simp [*], hs.property, by rw [Row.cell?_put, if_pos rfl]⟩
    · exact ⟨by simp [*], hs⟩

theorem Sides.send (hs : Sides b x cell p) (flow : Direction) (handle : Handle) (target : Value) :
    (p.send flow handle b.capability x target).1 = (x.agrees target || flow.writesHost) ∧
      Sides b (x.brought flow.writesHost target) cell
        (p.send flow handle b.capability x target).2 := by
  have hwrite : HostObject.write p.object b.capability target =
      (.ok (), p.object.set b.capability target) := by
    simp only [HostObject.write, hs.property]
  unfold Pass.send Value.brought
  split
  · exact ⟨by simp [*], hs⟩
  · split
    · rw [hwrite]
      exact ⟨by simp [*], by rw [PropertyBag.get?_set, if_pos rfl], hs.cell⟩
    · exact ⟨by simp [*], hs⟩

/-- A visit in both directions of the binding itself. -/
theorem Sides.reconciled (hs : Sides b x cell p) {direction flow : Direction}
    (hflow : b.direction.restrict direction = some flow) (handle : Handle) :
    Sides b (b.reconciled flow x cell).1 (b.reconciled flow x cell).2
      (p.visit direction handle b) := by
  have hvisit : p.visit direction handle b =
      if x.agrees cell.value then p.agree b.component x else p.settle flow handle b x cell := by
    simp only [Pass.visit, hflow, hs.cell, HostObject.exposes, HostObject.read, hs.property,
      Option.isSome_some, ↓reduceIte]
  rw [hvisit]
  unfold Binding.reconciled
  split
  · exact hs.agree x
  have hdiverged : Sides b x cell (p.diverged handle b x cell) := ⟨hs.property, hs.cell⟩
  obtain ⟨hpulled, hpull⟩ := hdiverged.pull flow (target b x cell)
  obtain ⟨hsent, hsend⟩ := hpull.send flow handle (target b x cell)
  rw [settle_eq]
  simp only [reached, hpulled, hsent]
  split
  · exact hsend.agree _
  · exact hsend

end Sides

/-! ## Nothing fails -/

/-- Nothing fails and no further entity is counted. -/
structure Smooth (p q : Pass PropertyBag) : Prop where
  entities : q.report.entities = p.report.entities
  failures : q.report.failures = p.report.failures

theorem Smooth.refl (p : Pass PropertyBag) : Smooth p p := ⟨rfl, rfl⟩

theorem Smooth.trans {p q r : Pass PropertyBag} (h : Smooth p q) (h' : Smooth q r) : Smooth p r :=
  ⟨h'.entities.trans h.entities, h'.failures.trans h.failures⟩

section Smooth

variable (p : Pass PropertyBag)

theorem smooth_agree (id : ComponentId) (base : Value) : Smooth p (p.agree id base) := by
  unfold agree
  split <;> exact ⟨rfl, rfl⟩

theorem smooth_pull (flow : Direction) (id : ComponentId) (cell : Cell) (target : Value) :
    Smooth p (p.pull flow id cell target).2 ∧ (p.pull flow id cell target).2.object = p.object := by
  unfold pull
  split
  · exact ⟨.refl p, rfl⟩
  · split <;> exact ⟨⟨rfl, rfl⟩, rfl⟩

theorem smooth_send {c : Capability} {x : Value} (hx : p.object.get? c = some x) (flow : Direction)
    (handle : Handle) (target : Value) : Smooth p (p.send flow handle c x target).2 := by
  unfold send
  split
  · exact .refl p
  · split
    · simp only [HostObject.write, hx]
      exact ⟨rfl, rfl⟩
    · exact .refl p

theorem smooth_visit (direction : Direction) (handle : Handle) (b : Binding) :
    Smooth p (p.visit direction handle b) := by
  unfold visit
  split
  · cases hx : p.object.get? b.capability with
    | none =>
      simp only [HostObject.exposes, hx, Option.isSome_none, Bool.false_eq_true, ↓reduceIte]
      exact .refl p
    | some x =>
      rename_i flow cell _ _
      simp only [HostObject.exposes, HostObject.read, hx, Option.isSome_some, ↓reduceIte]
      split
      · exact smooth_agree p b.component x
      · rw [settle_eq]
        have hdiverged : Smooth p (p.diverged handle b x cell) := ⟨rfl, rfl⟩
        obtain ⟨hpull, hobject⟩ :=
          smooth_pull (p.diverged handle b x cell) flow b.component cell (target b x cell)
        have hsend := smooth_send _ ((congrArg (·.get? b.capability) hobject).trans hx) flow handle
          (target b x cell)
        have hall := (hdiverged.trans hpull).trans hsend
        unfold reached
        dsimp only
        split
        · exact hall.trans (smooth_agree _ _ _)
        · exact hall
  · exact .refl p

theorem smooth_foldl (direction : Direction) (handle : Handle) (bs : List Binding) :
    Smooth p (bs.foldl (visit direction handle) p) := by
  induction bs generalizing p with
  | nil => exact .refl p
  | cons b bs ih => exact (p.smooth_visit direction handle b).trans (ih _)

end Smooth

end Pass

/-! ## One entity -/

/-- What a pass does to the two sides of a binding that shares with no other. -/
theorem Table.reconciled_synchronize {t : Table} {b : Binding} (halone : b.Alone t.bindings)
    {direction flow : Direction} (hflow : b.direction.restrict direction = some flow)
    {object : PropertyBag} {row : Row} {x : Value} {cell : Cell}
    (hproperty : object.get? b.capability = some x) (hcell : row.cell? b.component = some cell)
    (handle : Handle) (journal : Journal) :
    Pass.Sides b (b.reconciled flow x cell).1 (b.reconciled flow x cell).2
      (t.synchronize direction handle object row journal) := by
  obtain ⟨before, after, hsplit, hseparate⟩ := halone
  unfold synchronize
  rw [hsplit, List.foldl_append, List.foldl_cons]
  have hbefore := Pass.spares_foldl direction handle
    (fun a ha => hseparate a (List.mem_append_left _ ha))
    { object, row, report := { entities := 1 }, journal }
  have hvisit := (hbefore.sides ⟨hproperty, hcell⟩).reconciled hflow handle
  exact (Pass.spares_foldl direction handle
    (fun a ha => hseparate a (List.mem_append_right _ ha)) _).sides hvisit

namespace Coordinator

variable {σ : Type} {c d e : Coordinator PropertyBag σ} {b : Binding} {h : Handle} {x : Value}
  {cell : Cell}

/-- What both sides hold depends on who is bound, on the row and on the host object. -/
theorem Holds.congr (hh : c.Holds b h x cell)
    (hregistry : d.registry.resolve? h = c.registry.resolve? h)
    (hrow : d.world.rows.get? h.slot = c.world.rows.get? h.slot)
    (hobject : ∀ ref, c.registry.resolve? h = some ref →
      d.hosts.cells.get? ref.address = c.hosts.cells.get? ref.address) : d.Holds b h x cell := by
  obtain ⟨ref, object, row, hpair, howned, hproperty, hcell⟩ := hh
  obtain ⟨href, hfind, hr⟩ := pair?_eq_some_iff.mp hpair
  refine ⟨ref, object, row, pair?_eq_some_iff.mpr ⟨?_, ?_, ?_⟩, ?_, hproperty, hcell⟩
  · rw [hregistry, href]
  · rw [Hosts.find?, hobject ref href]
    exact hfind
  · rw [World.row?, hrow]
    exact hr
  · rw [hobject ref href]
    exact howned

section Consistent

variable (hp : c.population.Consistent)
include hp

theorem placed_of_consistent : c.population.Placed where
  mapped he := ⟨_, hp.mapped he, hp.placed he⟩
  rows {i row} hrow := by
    have hhandle := hp.rows i
    rw [hrow] at hhandle
    obtain ⟨e, he, heq⟩ := Option.map_eq_some_iff.mp hhandle.symm
    rw [← heq]
    exact hp.placed he

/-- Every bound entity has a row. -/
theorem exists_row {ref : HostRef} (href : c.registry.resolve? h = some ref) :
    ∃ row, c.world.row? h = some row := by
  rw [resolve?_eq hp] at href
  obtain ⟨e, hf, -⟩ := Option.map_eq_some_iff.mp href
  obtain ⟨hget, hhandle⟩ := Registry.find?_eq_some_iff.mp hf
  have hrow := hp.rows h.slot
  rw [show c.population.entryAt? h.slot = some e from hget] at hrow
  obtain ⟨row, hr, heq⟩ := Option.map_eq_some_iff.mp hrow
  exact ⟨row, World.row?_eq_some_iff.mpr ⟨hr, heq.trans hhandle⟩⟩

/-- Every row is of a bound entity. -/
theorem boundRows_eq : c.boundRows = c.world.toList.map Row.handle := by
  refine List.filter_eq_self.mpr fun j hj => ?_
  obtain ⟨row, hrow, rfl⟩ := List.mem_map.mp hj
  obtain ⟨i, hi⟩ := Slots.mem_toList.mp hrow
  have hentry := hp.rows i
  rw [show c.population.rowAt? i = some row from hi] at hentry
  obtain ⟨e, he, heq⟩ := Option.map_eq_some_iff.mp hentry.symm
  exact (isBound_iff_find? hp).mpr ⟨e, heq ▸ find?_of_get? hp he⟩

/-- A pass over all entities visits as many as there are. -/
theorem length_boundRows : c.boundRows.length = c.registry.size := by
  rw [boundRows_eq hp, List.length_map, World.toList, Slots.length_toList]
  exact hp.filled.trans hp.bindings.symm

theorem mem_boundRows_iff : h ∈ c.boundRows ↔ ∃ ref, c.registry.resolve? h = some ref := by
  rw [mem_boundRows (placed_of_consistent hp), isBound_iff_find? hp]
  simp only [resolve?_eq hp, Option.map_eq_some_iff]
  constructor
  · rintro ⟨-, e, he⟩
    exact ⟨e.host, e, he, rfl⟩
  · rintro ⟨ref, e, he, rfl⟩
    obtain ⟨row, hrow⟩ := exists_row hp (h := h) (by rw [resolve?_eq hp, he]; rfl)
    exact ⟨by rw [World.contains, hrow]; rfl, e, he⟩

end Consistent

/-! ## All entities -/

/-- A visit to an entity whose host object is there has no failures. -/
theorem clean_visit {ref : HostRef} (hp : c.population.Consistent)
    (href : c.registry.resolve? h = some ref) (halive : c.hosts.alive ref = true)
    (direction : Direction) : (visit direction ({}, c) h).1.entities = 1 ∧
      (visit direction ({}, c) h).1.failures = [] := by
  obtain ⟨row, hrow⟩ := exists_row hp href
  obtain ⟨object, hobject⟩ := alive_iff.mp halive
  obtain ⟨j, hvisit⟩ := c.visit_eq direction {} h
  rw [pass?_eq_map, pair?_eq_some_iff.mpr ⟨href, hobject, hrow⟩] at hvisit
  have hsmooth := Pass.smooth_foldl { object, row, report := { entities := 1 } } direction h
    c.table.bindings
  rw [hvisit]
  dsimp only [Option.map_some]
  rw [SyncReport.empty_merge]
  exact ⟨hsmooth.entities, hsmooth.failures⟩

/-- Visits without failures are told of by their number. -/
theorem told_of_clean (direction : Direction) {hs : List Handle}
    (hclean : ∀ h ∈ hs, (visit direction ({}, c) h).1.entities = 1 ∧
      (visit direction ({}, c) h).1.failures = []) :
    (told direction c hs).entities = hs.length ∧ (told direction c hs).failures = [] := by
  induction hs with
  | nil => exact ⟨rfl, rfl⟩
  | cons h hs ih =>
    obtain ⟨hentities, hfailures⟩ := hclean h List.mem_cons_self
    obtain ⟨hrest, hrest'⟩ := ih fun j hj => hclean j (List.mem_cons_of_mem _ hj)
    rw [told_cons]
    exact ⟨by rw [SyncReport.merge, hentities, hrest, List.length_cons, Nat.add_comm],
      by rw [SyncReport.merge, hfailures, hrest', List.append_nil]⟩

section All

variable (hp : c.population.Consistent) (hapart : c.Apart)
include hp hapart

/-- Where a pass over all entities leads, and what it tells. -/
theorem toured_visitAll (direction : Direction) :
    Toured direction c.synchronizing c.boundRows (c.visitAll direction).2 ∧
      (c.visitAll direction).1 = told direction c.synchronizing c.boundRows := by
  have hplaced := placed_of_consistent hp
  have hstart : c.synchronizing.Apart := hapart
  have hbound : ∀ h ∈ c.boundRows, c.synchronizing.registry.isBound h = true := fun h hin =>
    ((mem_boundRows hplaced).mp hin).2
  have hnd : c.boundRows.Nodup := by
    refine (pairwise_boundRows hplaced).imp fun {a b} hlt heq => ?_
    rw [heq] at hlt
    exact Nat.lt_irrefl _ hlt
  obtain ⟨htoured, htold⟩ : Toured direction c.synchronizing ([] ++ c.boundRows) _ ∧ _ :=
    (Toured.nil direction c.synchronizing).foldl hstart hbound hnd {}
  rw [List.nil_append] at htoured
  rw [SyncReport.empty_merge] at htold
  exact ⟨htoured, htold⟩

/-- If every host object is there, a pass visits every entity and has no failures. -/
theorem clean_synchronizeAll (direction : Direction)
    (halive : ∀ h ref, c.registry.resolve? h = some ref → c.hosts.alive ref = true) :
    (c.synchronizeAll direction).1.entities = c.registry.size ∧
      (c.synchronizeAll direction).1.failures = [] := by
  rw [synchronizeAll_eq, (toured_visitAll hp hapart direction).2, ← length_boundRows hp]
  refine told_of_clean direction fun h hin => ?_
  obtain ⟨ref, href⟩ := (mem_boundRows_iff hp).mp hin
  exact clean_visit (c := c.synchronizing) hp href (halive h ref href) direction

/-- A pass over all entities brings both sides of a binding together that shares with no other. -/
theorem Holds.synchronizeAll (hh : c.Holds b h x cell) (halone : b.Alone c.table.bindings)
    {direction flow : Direction} (hflow : b.direction.restrict direction = some flow) :
    (c.synchronizeAll direction).2.Holds b h (b.reconciled flow x cell).1
      (b.reconciled flow x cell).2 := by
  have hin : h ∈ c.boundRows := by
    obtain ⟨ref, object, row, hpair, -⟩ := hh
    exact (mem_boundRows_iff hp).mpr ⟨ref, (pair?_eq_some_iff.mp hpair).1⟩
  have htoured := (toured_visitAll hp hapart direction).1
  have hvisit : (Coordinator.visit direction ({}, c.synchronizing) h).2.Holds b h _ _ :=
    Holds.visit (c := c.synchronizing) hh direction fun object row hproperty hcell =>
      Table.reconciled_synchronize halone hflow hproperty hcell h {}
  have hregistry : (Coordinator.visit direction ({}, c.synchronizing) h).2.registry =
      c.registry := by
    obtain ⟨j, heq⟩ := c.synchronizing.visit_eq direction {} h
    rw [heq]
    split <;> rfl
  obtain ⟨j, hrest⟩ := htoured.rest
  have hregistry' : (c.visitAll direction).2.registry = c.registry := by
    rw [hrest]
    rfl
  have hall := hvisit.congr (by rw [hregistry', hregistry]) (htoured.row h hin)
    fun ref href => htoured.object h hin ref (hregistry ▸ href)
  obtain ⟨k, is, hreports⟩ := foldl_reportSynchronization
    (c.visitAll direction).1.failures (c.visitAll direction).2
  rw [synchronizeAll_eq, hreports]
  exact hall

end All

/-! ## Frames in which nobody comes or goes -/

theorem reap_of_alive (hp : c.population.Consistent)
    (halive : ∀ h ref, c.registry.resolve? h = some ref → c.hosts.alive ref = true) :
    c.reap = (0, c) := by
  have hnone : c.registry.orphans c.hosts = [] := by
    refine List.eq_nil_iff_forall_not_mem.mpr fun h hin => ?_
    obtain ⟨e, hf, hgone⟩ := (mem_orphans_iff hp).mp hin
    have hthere := halive h e.host (by rw [resolve?_eq hp, hf]; rfl)
    rw [hthere] at hgone
    cases hgone
  simp [reap, hnone]

/-- What a frame comes to in which nobody comes or goes. -/
structure Reconciles (c : Coordinator PropertyBag σ) (time : Duration) (whole : FrameReport)
    (d : Coordinator PropertyBag σ) : Prop where
  flush : whole.flush = {}
  entities : whole.sync.entities = c.registry.size
  clean : whole.sync.failures = []
  failures : whole.dispatch.failures = []
  rest : d.AtRest
  waiting : d.waiting = []
  registry : d.registry = c.registry
  table : d.table = c.table
  hosts : c.hosts.Alike d.hosts
  time : d.frame.time = time
  /-- The two sides of every binding that shares with no other are brought together. -/
  holds : ∀ {b h x cell}, b.Alone c.table.bindings → c.Holds b h x cell →
    d.Holds b h (b.reconciled b.direction x cell).1 (b.reconciled b.direction x cell).2

theorem AtRest.reconciles {refs : List HostRef} (h : c.AtRest) (hrefs : c.Houses refs)
    (hids : (refs.map HostRef.id).Nodup) (halive : ∀ ref ∈ refs, c.hosts.alive ref = true)
    (hwaiting : c.waiting = []) (hapart : c.Apart)
    (hcap : c.registry.allocator.capacity ≤ 2 ^ 32) (hroom : refs.length ≤ 2 ^ 32)
    {delta : Duration} {frame : Frame} (hadvance : c.frame.advance delta = .ok frame) :
    ∃ whole d, c.step delta = (.ok (.ok whole), d) ∧ c.Reconciles frame.time whole d := by
  have hnodup : refs.Nodup := List.Pairwise.of_map _ (fun _ _ hne heq => hne (heq ▸ rfl)) hids
  have hstay : ∀ ref, ref ∈ refs ↔ ref ∈ refs ∧ c.hosts.alive ref = true :=
    fun ref => ⟨fun hin => ⟨hin, halive ref hin⟩, And.left⟩
  have hnobody : c.waiting = ([] : List HostRef).map .create := hwaiting
  obtain ⟨whole, d, hstep, hrenews⟩ := h.step hrefs hnodup hstay hnobody (by simpa using hids)
    (by simp) hcap (by simpa using hroom) hadvance
  obtain ⟨reaped, hreaped, hflush⟩ := hrenews.flush
  obtain rfl : reaped = 0 := by omega
  have hthere : ∀ j ref, c.registry.resolve? j = some ref → c.hosts.alive ref = true :=
    fun j ref hj => halive ref ((hrefs ref).mp ⟨j, hj⟩)
  -- the pass begins with the entities and host objects of before
  obtain ⟨frame, e, hcore, hpasses⟩ := hrenews.passes
  have hreap : ({ c with frame } : Coordinator PropertyBag σ).reap = (0, { c with frame }) :=
    reap_of_alive h.consistent hthere
  rw [hreap] at hcore
  have hregistry : e.registry = c.registry := congrArg Core.registry hcore
  have hworld : e.world = c.world := congrArg Core.world hcore
  have hhosts : e.hosts = c.hosts := congrArg (fun k => k.surroundings.hosts) hcore
  have htable : e.table = c.table := congrArg Core.table hcore
  have hp : e.population.Consistent := by
    rw [population, hregistry, hworld]
    exact h.consistent
  have hapart' : e.Apart := by
    rw [Apart, hregistry]
    exact hapart
  obtain ⟨hentities, hclean⟩ := clean_synchronizeAll hp hapart' .bidirectional fun j ref hj => by
    rw [hhosts]
    exact hthere j ref (hregistry ▸ hj)
  have howned : e.hosts.AllOwned := hhosts ▸ h.owned
  obtain ⟨hkept, -⟩ := alike_synchronizeAll howned .bidirectional
  refine ⟨whole, d, hstep, hflush, ?_, ?_, hrenews.failures, hrenews.rest, hrenews.waiting, ?_,
    hpasses.table.trans htable, hrenews.hosts, hrenews.time, fun {b j x cell} halone hh => ?_⟩
  · rw [hpasses.report, hentities, hregistry]
  · rw [hpasses.report, hclean]
  · rw [hpasses.registry, hkept, hregistry]
  · have hbefore : e.Holds b j x cell := hh.congr (by rw [hregistry]) (by rw [hworld])
      fun _ _ => by rw [hhosts]
    have hafter := hbefore.synchronizeAll hp hapart' (htable.symm ▸ halone)
      b.direction.restrict_bidirectional
    exact hafter.congr (by rw [hpasses.registry]) (by rw [hpasses.world]) fun _ _ => by
      rw [hpasses.hosts]

end Coordinator

end Tether
