import Tether.Proofs.Bases
import Tether.Proofs.Schedules

/-!
# The last agreement

`Coordinator.lastAgreed` follows a run and keeps the value on which the host object of an entity
and one of its components last agreed : when the entity was bound, or in the last pass over it
that brought both sides together. It gives that value up when the component is added over, and
when a pass meets something that is not a number.

The base of the component is that value (`Coordinator.tracks_run`), for a binding that keeps the
side that changed and shares with no other. So if the host still holds it, a change on the side of
the entity is not taken for one of the host : the next pass in both directions keeps it
(`Coordinator.edit_kept_run`). Adding a component over itself moves the base, though both sides
never agreed on the new value, and the next pass drops it (`Coordinator.synchronize_addComponent`).
-/

set_option linter.unusedSectionVars false

namespace Tether

/-! ## Cells in the world -/

namespace World

/-- The cell of a component of an entity. -/
def cell? (w : World) (h : Handle) (id : ComponentId) : Option Cell :=
  (w.row? h).bind fun row => row.cell? id

/-- In the slot of a handle that has a row no other handle has one. -/
theorem row?_eq_none {w : World} {j h : Handle} {row : Row} (hrow : w.row? j = some row)
    (hslot : h.slot = j.slot) (hne : h ≠ j) : w.row? h = none := by
  obtain ⟨hget, hhandle⟩ := row?_eq_some_iff.mp hrow
  rw [row?, hslot, hget, Option.filter_some, if_neg]
  simpa [hhandle] using Ne.symm hne

theorem row?_modify (w : World) {j : Handle} {f : Row → Row}
    (hf : ∀ row, w.row? j = some row → (f row).handle = j) (h : Handle) :
    (w.modify j f).row? h = if h = j then (w.row? j).map f else w.row? h := by
  cases hrow : w.row? j with
  | none =>
    have hsame : w.modify j f = w := by simp only [modify, hrow]
    rw [hsame]
    split
    · rename_i hh
      rw [hh, hrow]
      rfl
    · rfl
  | some row =>
    obtain ⟨hget, -⟩ := row?_eq_some_iff.mp hrow
    have hnew := hf row hrow
    rw [row?, get?_rows_modify, hrow]
    by_cases hh : h = j
    · simp [hh, hget, hnew]
    · by_cases hslot : h.slot = j.slot
      · rw [row?_eq_none hrow hslot hh, hslot, hget]
        simp [hh, hnew, Ne.symm hh]
      · simp [hh, hslot, row?]

theorem row?_spawn (w : World) (j h : Handle) :
    (w.spawn j).row? h =
      if h = j ∧ w.rows.get? j.slot = none then some { handle := j } else w.row? h := by
  cases hfree : w.rows.get? j.slot with
  | some row => simp [spawn, hfree]
  | none =>
    rw [spawn_of_free hfree, row?, Slots.get?_put]
    by_cases hh : h = j
    · subst hh
      simp
    · by_cases hslot : h.slot = j.slot
      · simp [hh, hslot, row?, hfree, Ne.symm hh]
      · simp [hh, hslot, row?]

/-- A row that is new has no components. -/
theorem cell?_spawn (w : World) (j h : Handle) (id : ComponentId) :
    (w.spawn j).cell? h id = w.cell? h id := by
  rw [cell?, row?_spawn]
  split
  · rename_i hfree
    obtain ⟨rfl, hfree⟩ := hfree
    simp [cell?, row?, hfree, Row.cell?, Row.lookup]
  · rfl

theorem row?_despawn (w : World) (j h : Handle) :
    (w.despawn j).row? h = if h = j then none else w.row? h := by
  cases hrow : w.row? j with
  | none =>
    have hsame : w.despawn j = w := by simp only [despawn, hrow]
    rw [hsame]
    split
    · rename_i hh
      rw [hh, hrow]
    · rfl
  | some row =>
    rw [despawn_of_row? hrow, row?, Slots.get?_clear]
    by_cases hh : h = j
    · simp [hh]
    · by_cases hslot : h.slot = j.slot
      · rw [row?_eq_none hrow hslot hh]
        simp [hslot]
      · simp [hh, hslot, row?]

end World

/-! ## What leaves a base alone -/

namespace Coordinator

section Keeps

variable {ο σ : Type} [HostObject ο] {h : Handle} {id : ComponentId}

/-- The component of an entity is not added, and its base stays as it is. -/
structure Keeps (h : Handle) (id : ComponentId) (c d : Coordinator ο σ) : Prop where
  bindings : d.table.bindings = c.table.bindings
  base : ∀ {cell'}, d.world.cell? h id = some cell' →
    ∃ cell, c.world.cell? h id = some cell ∧ cell.synced = cell'.synced

theorem Keeps.of_eq {c d : Coordinator ο σ} (ht : d.table = c.table)
    (hcell : d.world.cell? h id = c.world.cell? h id) : Keeps h id c d :=
  ⟨by rw [ht], fun {cell'} hc => ⟨cell', hcell ▸ hc, rfl⟩⟩

theorem Keeps.refl (c : Coordinator ο σ) : Keeps h id c c := .of_eq rfl rfl

theorem Keeps.trans {c d e : Coordinator ο σ} (hcd : Keeps h id c d) (hde : Keeps h id d e) :
    Keeps h id c e := by
  refine ⟨hde.bindings.trans hcd.bindings, fun {cell''} hc => ?_⟩
  obtain ⟨cell', hc', hsame'⟩ := hde.base hc
  obtain ⟨cell, hc, hsame⟩ := hcd.base hc'
  exact ⟨cell, hc, hsame.trans hsame'⟩

theorem Keeps.foldl {α : Type} {f : Coordinator ο σ → α → Coordinator ο σ}
    (hf : ∀ c a, Keeps h id c (f c a)) (as : List α) (c : Coordinator ο σ) :
    Keeps h id c (as.foldl f c) := by
  induction as generalizing c with
  | nil => exact .refl c
  | cons a as ih => exact (hf c a).trans (ih _)

/-- The row of an entity changes without the component being added or its base being changed. -/
theorem keeps_modify (c : Coordinator ο σ) {j : Handle} {f : Row → Row}
    (hf : ∀ row, (f row).handle = row.handle)
    (hbase : j = h → ∀ row cell', (f row).cell? id = some cell' →
      ∃ cell, row.cell? id = some cell ∧ cell.synced = cell'.synced) :
    Keeps h id c { c with world := c.world.modify j f } := by
  refine ⟨rfl, fun {cell'} hc => ?_⟩
  have hrow := c.world.row?_modify (j := j) (f := f)
    (fun row hrow => (hf row).trans (World.row?_eq_some_iff.mp hrow).2) h
  simp only [World.cell?, hrow] at hc ⊢
  split at hc
  · rename_i hj
    cases hold : c.world.row? j with
    | none => simp [hold] at hc
    | some row =>
      rw [hold] at hc
      rw [hj, hold]
      exact hbase hj.symm row cell' hc
  · exact ⟨cell', hc, rfl⟩

theorem keeps_unbind (c : Coordinator ο σ) (j : Handle) : Keeps h id c (c.unbind j).2 := by
  cases hb : c.registry.bound j with
  | error error =>
    rw [unbind_of_error hb]
    exact .refl c
  | ok e =>
    rw [unbind_of_bound hb]
    refine ⟨rfl, fun {cell'} hc => ?_⟩
    have hc' : (c.world.despawn e.handle).cell? h id = some cell' := hc
    rw [World.cell?, World.row?_despawn] at hc'
    split at hc'
    · cases hc'
    · exact ⟨cell', hc', rfl⟩

theorem keeps_unbindHost (c : Coordinator ο σ) (host : HostId) :
    Keeps h id c (c.unbindHost host).2 := by
  unfold unbindHost
  split
  · exact .refl c
  · exact c.keeps_unbind _

theorem keeps_reap (c : Coordinator ο σ) : Keeps h id c c.reap.2 := by
  have hone (count : Nat) (c : Coordinator ο σ) (j : Handle) :
      Keeps h id c (reapOne (count, c) j).2 := by
    have hunbind : Keeps h id c (c.unbind j).2 := c.keeps_unbind j
    unfold reapOne
    dsimp only
    split <;> rename_i heq <;> rw [heq] at hunbind
    · exact hunbind
    · exact hunbind.trans (.of_eq rfl rfl)
  have hall (js : List Handle) (count : Nat) (c : Coordinator ο σ) :
      Keeps h id c (js.foldl reapOne (count, c)).2 := by
    induction js generalizing count c with
    | nil => exact .refl c
    | cons j js ih => exact (hone count c j).trans (ih _ _)
  have hfold := hall (c.registry.orphans c.hosts) 0 c
  unfold reap
  dsimp only
  split
  · exact hfold.trans (.of_eq rfl rfl)
  · exact hfold

/-- Adding another component, or one of another entity. -/
theorem keeps_addComponent (c : Coordinator ο σ) {j : Handle} {i : ComponentId}
    (hne : ¬(j = h ∧ i = id)) (value : Value) : Keeps h id c (c.addComponent j i value).2 := by
  have hinsert : Keeps h id c { c with world := c.world.modify j fun r => r.insert i value } := by
    refine c.keeps_modify (f := fun r => r.insert i value) (fun _ => rfl) fun hj row cell' hc => ?_
    rw [Row.cell?_insert, if_neg fun hid => hne ⟨hj, hid.symm⟩] at hc
    exact ⟨cell', hc, rfl⟩
  unfold addComponent
  split
  · exact .refl c
  · split
    · exact .refl c
    · dsimp only
      split
      · exact hinsert
      · exact hinsert.trans (.of_eq rfl rfl)

theorem table_addComponent (c : Coordinator ο σ) (j : Handle) (i : ComponentId) (value : Value) :
    (c.addComponent j i value).2.table = c.table := by
  unfold addComponent
  split
  · rfl
  · split
    · rfl
    · dsimp only
      split <;> rfl

theorem table_attached (c : Coordinator ο σ) (host : HostRef) (object : ο) :
    (c.attached host object).table = c.table := by
  rw [attached]
  obtain ⟨_, _, _, _, heq, -⟩ := complete_eq
    ((c.opening host).fill c.registry.allocator.alloc.1 host object).2.2
    (c.registry.settled host) c.registry.allocator.alloc.1 host
    ((c.opening host).fill c.registry.allocator.alloc.1 host object).1
    ((c.opening host).fill c.registry.allocator.alloc.1 host object).2.1
  dsimp only
  rw [heq]
  show ((c.opening host).fill _ host object).2.2.table = _
  unfold fill
  split <;> rfl

theorem keeps_removeComponent (c : Coordinator ο σ) (j : Handle) (i : ComponentId) :
    Keeps h id c (c.removeComponent j i).2 := by
  have herase : Keeps h id c { c with world := c.world.modify j fun r => r.erase i } := by
    refine c.keeps_modify (f := fun r => r.erase i) (fun _ => rfl) fun _ row cell' hc => ?_
    rw [Row.cell?_erase] at hc
    split at hc
    · cases hc
    · exact ⟨cell', hc, rfl⟩
  unfold removeComponent
  split
  · exact .refl c
  · split
    · exact .refl c
    · exact herase.trans (.of_eq rfl rfl)

/-- A change on the side of the entity. -/
theorem keeps_write (c : Coordinator ο σ) (j : Handle) (i : ComponentId) (value : Value) :
    Keeps h id c { c with world := c.world.modify j fun r => r.write i value } := by
  refine c.keeps_modify (f := fun r => r.write i value) (fun r => ?_) fun _ row cell' hc => ?_
  · unfold Row.write
    split <;> rfl
  · unfold Row.write at hc
    split at hc
    · rename_i cell hcell
      rw [Row.cell?_put] at hc
      split at hc
      · rename_i hid
        cases hc
        exact ⟨cell, hid ▸ hcell, rfl⟩
      · exact ⟨cell', hc, rfl⟩
    · exact ⟨cell', hc, rfl⟩

theorem keeps_record (p : Pending) (report : FlushReport) (result : Except Error Unit)
    (c : Coordinator ο σ) : Keeps h id c (record p report result c).2 := by
  unfold record
  split
  · exact .refl c
  · split <;> exact .of_eq rfl rfl

theorem keeps_dispatch (c : Coordinator ο σ) : Keeps h id c c.dispatch.2 := by
  have hpublish (ss : List Signal) (c : Coordinator ο σ) :
      Keeps h id c (publishAll ss c).2 := by
    induction ss generalizing c with
    | nil => exact .refl c
    | cons s ss ih =>
      have hone : Keeps h id c (c.publish s).2 := .of_eq rfl rfl
      unfold publishAll
      generalize c.publish s = x at hone
      obtain ⟨reply, d⟩ := x
      cases reply with
      | error error => exact hone
      | ok failures =>
        have hrest := hone.trans (ih d)
        dsimp only
        split <;> rename_i heq <;> rw [heq] at hrest <;> exact hrest
  have hall := hpublish c.outbox.toList
    { c with frame := c.frame.enter .reaction, outbox := #[] }
  have hstart : Keeps h id c { c with frame := c.frame.enter .reaction, outbox := #[] } :=
    .of_eq rfl rfl
  unfold dispatch
  dsimp only
  generalize publishAll c.outbox.toList
    { c with frame := c.frame.enter .reaction, outbox := #[] } = x at hall
  obtain ⟨reply, d⟩ := x
  have hd := hstart.trans hall
  cases reply with
  | error error => exact hd
  | ok failures =>
    have hcontain : Keeps h id d.tick.2 (failures.foldl contain d.tick.2) :=
      .foldl (f := contain) (fun _ _ => .of_eq rfl rfl) failures d.tick.2
    have htick : Keeps h id d d.tick.2 := .of_eq rfl rfl
    have hend : Keeps h id d (failures.foldl contain d.tick.2).endFrame :=
      htick.trans (hcontain.trans (.of_eq rfl rfl))
    dsimp only
    split <;> exact hd.trans hend

end Keeps

end Coordinator

/-! ## What both sides last agreed on -/

namespace Binding

/-- What both sides of the binding hold, if they hold one value. -/
def agreement (b : Binding) (object : PropertyBag) (row : Row) : Option Value :=
  match object.get? b.capability, row.value? b.component with
  | some x, some y => if x.agrees y then some x else none
  | _, _ => none

/-- Whether one of the two sides holds something that is not a number. -/
def meetsNaN (b : Binding) (object : PropertyBag) (row : Row) : Bool :=
  (object.get? b.capability).any Value.hasNaN || (row.value? b.component).any Value.hasNaN

end Binding

namespace Coordinator

/-- The host object of an entity and its row, if there are both. -/
def pair? {ο σ : Type} [HostObject ο] (c : Coordinator ο σ) (h : Handle) :
    Option (HostRef × ο × Row) :=
  match c.registry.resolve? h, c.world.row? h with
  | some host, some row => (c.hosts.find? host).map fun object => (host, object, row)
  | _, _ => none

theorem pair?_eq_some_iff {ο σ : Type} [HostObject ο] {c : Coordinator ο σ} {h : Handle}
    {host : HostRef} {object : ο} {row : Row} :
    c.pair? h = some (host, object, row) ↔
      c.registry.resolve? h = some host ∧ c.hosts.find? host = some object ∧
        c.world.row? h = some row := by
  unfold pair?
  cases c.registry.resolve? h with
  | none => simp
  | some host' =>
    cases c.world.row? h with
    | none => simp
    | some row' =>
      simp only [Option.map_eq_some_iff, Prod.mk.injEq, Option.some.injEq]
      constructor
      · rintro ⟨_, hfind, rfl, rfl, rfl⟩
        exact ⟨rfl, hfind, rfl⟩
      · rintro ⟨rfl, hfind, rfl⟩
        exact ⟨object, hfind, rfl, rfl, rfl⟩

section Agreed

variable {σ : Type} (b : Binding) (h : Handle)

/-- Binding a host object : if that gives the component, then with the host's value. -/
def agreedAtBind (c : Coordinator PropertyBag σ) (host : HostRef) (last : Option Value) :
    Option Value :=
  if (c.world.cell? h b.component).isSome then last
  else
    match c.hosts.find? host, (c.attach host).2.world.row? h with
    | some object, some row => b.agreement object row
    | _, _ => none

/-- A pass over the entity : if both sides agree at its end, then on what they hold. -/
def agreedAtPass (c : Coordinator PropertyBag σ) (direction : Direction) (last : Option Value) :
    Option Value :=
  match c.pair? h with
  | some (_, object, row) =>
    let p := c.table.synchronize direction h object row {}
    if b.meetsNaN object row then none else (b.agreement p.object p.row).or last
  | none => last

/-- Passes over several entities. -/
def agreedAtPasses (direction : Direction) :
    List Handle → Coordinator PropertyBag σ → Option Value → Option Value
  | [], _, last => last
  | j :: js, c, last =>
    agreedAtPasses direction js (visit direction ({}, c) j).2
      (if j = h then agreedAtPass b h c direction last else last)

/-- A pass over all entities. -/
def agreedAtAll (c : Coordinator PropertyBag σ) (direction : Direction) (last : Option Value) :
    Option Value :=
  agreedAtPasses b h direction c.boundRows c.synchronizing last

/-- A mutation : adding the component leaves nothing that both sides agreed on. -/
def agreedAtMutation (c : Coordinator PropertyBag σ) (last : Option Value) :
    Mutation → Option Value
  | .create host => agreedAtBind b h c host last
  | .addComponent j id _ => if j = h ∧ id = b.component then none else last
  | _ => last

/-- The mutations that are applied of a list. -/
def agreedAtMutations : List Pending → Coordinator PropertyBag σ → Option Value → Option Value
  | [], _, last => last
  | p :: rest, c, last =>
    let last := agreedAtMutation b h c last p.mutation
    match c.perform p.mutation with
    | (.error _, _) => last
    | (.ok outcome, d) => agreedAtMutations rest (record p {} outcome d).2 last

/-- A flush. -/
def agreedAtFlush (c : Coordinator PropertyBag σ) (last : Option Value) : Option Value :=
  if c.frame.flushed then last else agreedAtMutations b h c.due c.drained last

/-- A frame up to its pass over all entities. -/
def agreedAtBegin (c : Coordinator PropertyBag σ) (delta : Duration) (last : Option Value) :
    Option Value :=
  match c.frame.advance delta with
  | .error _ => last
  | .ok frame => agreedAtFlush b h { c with frame } last

/-- What the host object of an entity and a component of it last agreed on, after an action. -/
def agreedAt (c : Coordinator PropertyBag σ) (last : Option Value) :
    Action PropertyBag σ → Option Value
  | .bind host => agreedAtBind b h c host last
  | .addComponent j id _ => if j = h ∧ id = b.component then none else last
  | .flush => agreedAtFlush b h c last
  | .synchronize j direction => if j = h then agreedAtPass b h c direction last else last
  | .synchronizeAll direction => agreedAtAll b h c direction last
  | .step delta =>
    match c.beginStep delta with
    | (.ok (.ok _), d) => agreedAtAll b h d .bidirectional (agreedAtBegin b h c delta last)
    | _ => agreedAtBegin b h c delta last
  | _ => last

/-- What the host object of an entity and a component of it last agreed on, after a run. -/
def lastAgreed : Coordinator PropertyBag σ → List (Action PropertyBag σ) → Option Value →
    Option Value
  | _, [], last => last
  | c, a :: as, last => lastAgreed (c.act a) as (agreedAt b h c last a)

end Agreed

/-! ## The base is the last agreement -/

section Tracks

variable {σ : Type} {b : Binding} {h : Handle} {bs : List Binding}
  {c d : Coordinator PropertyBag σ} {last : Option Value}

/-- The base of the component is what both sides last agreed on. -/
structure Tracks (b : Binding) (h : Handle) (bs : List Binding) (c : Coordinator PropertyBag σ)
    (last : Option Value) : Prop where
  bindings : c.table.bindings = bs
  base : ∀ {v cell}, last = some v → c.world.cell? h b.component = some cell →
    cell.synced.agrees v = true

theorem Tracks.keeps (ht : Tracks b h bs c last) (hk : Keeps h b.component c d) :
    Tracks b h bs d last := by
  refine ⟨hk.bindings.trans ht.bindings, fun hlast hc => ?_⟩
  obtain ⟨cell, hcell, hsame⟩ := hk.base hc
  rw [← hsame]
  exact ht.base hlast hcell

theorem Tracks.none_of_bindings (hb : d.table.bindings = bs) : Tracks b h bs d none :=
  ⟨hb, nofun⟩

variable (ht : Tracks b h bs c last) (halone : b.Alone bs)
include ht

theorem tracks_addComponent (j : Handle) (id : ComponentId) (value : Value) :
    Tracks b h bs (c.addComponent j id value).2
      (if j = h ∧ id = b.component then none else last) := by
  split
  · exact .none_of_bindings (by rw [table_addComponent]; exact ht.bindings)
  · rename_i hne
    exact ht.keeps (c.keeps_addComponent hne value)

include halone

/-- The component is filled with the host's value, if it is missing in the row that is filled. -/
theorem cell?_fill (j : Handle) (host : HostRef) (object : PropertyBag) :
    (c.fill j host object).2.2.world.cell? h b.component =
      if h = j then
        (c.world.row? j).bind fun row =>
          (row.cell? b.component).or ((object.get? b.capability).map Cell.agreed)
      else c.world.cell? h b.component := by
  cases hrow : c.world.row? j with
  | none =>
    have hfill : (c.fill j host object).2.2 = c := by simp [fill, hrow]
    rw [hfill]
    split
    · rename_i hh
      simp [World.cell?, hh, hrow]
    · rfl
  | some row =>
    have hhandle : (c.table.materialize j object row).row.handle = j :=
      (Materialized.handle_foldl_visit _ _ _).trans (World.row?_eq_some_iff.mp hrow).2
    have hworld : (c.fill j host object).2.2.world =
        c.world.store (c.table.materialize j object row).row := by simp [fill, hrow, setHosts]
    rw [hworld, World.cell?, World.store, hhandle, World.row?_modify _ fun _ _ => hhandle]
    split
    · simp only [hrow, Option.map_some, Option.bind_some]
      exact Table.cell?_materialize (ht.bindings ▸ halone) j object row
    · rfl

/-- What becomes of the component when a host object gets an entity : it stays as it is, and a new
one has the host's value. -/
theorem cell?_attached (host : HostRef) (object : PropertyBag) {cell' : Cell}
    (hcell' : (c.attached host object).world.cell? h b.component = some cell') :
    (c.world.cell? h b.component).or ((object.get? b.capability).map Cell.agreed) =
      some cell' := by
  have hopening : Tracks b h bs (c.opening host) none := .none_of_bindings ht.bindings
  rw [attached, world_complete, cell?_fill hopening halone] at hcell'
  have hcell : (c.opening host).world.cell? h b.component = c.world.cell? h b.component :=
    c.world.cell?_spawn _ h _
  rw [← hcell]
  split at hcell'
  · rename_i hh
    obtain ⟨row, hrow, hfilled⟩ := Option.bind_eq_some_iff.mp hcell'
    rw [World.cell?, hh, hrow]
    exact hfilled
  · rw [hcell']
    rfl

theorem tracks_attach (host : HostRef) :
    Tracks b h bs (c.attach host).2 (agreedAtBind b h c host last) := by
  unfold agreedAtBind
  cases ho : c.hosts.find? host with
  | none =>
    rw [attach_of_gone ho]
    split
    · exact ht
    · exact .none_of_bindings ht.bindings
  | some object =>
    cases hf : c.registry.handleOf? host.id with
    | some j =>
      rw [attach_of_bound ho hf]
      split
      · exact ht
      · rename_i hnone
        refine ⟨ht.bindings, fun _ hc => ?_⟩
        rw [hc] at hnone
        exact absurd rfl hnone
    | none =>
      rw [attach_of_fresh ho hf]
      refine ⟨(c.table_attached host object ▸ ht.bindings :), fun {v cell'} hlast hc => ?_⟩
      have hcell' := cell?_attached ht halone host object hc
      dsimp only at hlast
      cases hcell : c.world.cell? h b.component with
      | some cell =>
        rw [hcell] at hlast hcell'
        cases hcell'
        exact ht.base hlast hcell
      | none =>
        rw [hcell] at hlast hcell'
        obtain ⟨x, hx, rfl⟩ := Option.map_eq_some_iff.mp hcell'
        obtain ⟨row, hrow, hcell⟩ := Option.bind_eq_some_iff.mp hc
        simp only [hrow, Binding.agreement, hx, Row.value?, hcell, Option.map_some,
          Cell.agreed, Option.isSome_none, Bool.false_eq_true, ↓reduceIte] at hlast
        split at hlast
        · rename_i hself
          exact Option.some.inj hlast ▸ hself
        · cases hlast

theorem tracks_bind (host : HostRef) :
    Tracks b h bs (c.bind host).2 (agreedAtBind b h c host last) := by
  have hattach := tracks_attach ht halone host
  rcases c.bind_snd host with heq | ⟨j, heq⟩
  · rw [heq]
    exact hattach
  · rw [heq]
    have hnote : Keeps h b.component (c.attach host).2
        ((c.attach host).2.note (.droppedWhileBinding host.id j)) := .of_eq rfl rfl
    exact hattach.keeps (hnote.trans (keeps_unbind _ j))

/-! ### Mutations -/

theorem tracks_perform (m : Mutation) :
    Tracks b h bs (c.perform m).2 (agreedAtMutation b h c last m) := by
  cases m with
  | create host => exact tracks_bind ht halone host
  | destroy target =>
    cases target with
    | handle j => exact ht.keeps (c.keeps_unbind j)
    | host id => exact ht.keeps (c.keeps_unbindHost id)
  | addComponent j id value => exact tracks_addComponent ht j id value
  | removeComponent j id => exact ht.keeps (c.keeps_removeComponent j id)
  | signal name entities delay => exact ht.keeps (.of_eq rfl rfl)

theorem tracks_applyAll (ps : List Pending) (report : FlushReport) :
    Tracks b h bs (applyAll ps report c).2 (agreedAtMutations b h ps c last) := by
  induction ps generalizing report c last with
  | nil => exact ht
  | cons p ps ih =>
    have hone := tracks_perform ht halone p.mutation
    unfold applyAll agreedAtMutations
    generalize c.perform p.mutation = x at hone
    obtain ⟨result, d⟩ := x
    cases result with
    | error overflow => exact hone
    | ok outcome =>
      have hrecord := hone.keeps (keeps_record p report outcome d)
      rw [record_snd] at hrecord
      have hrest := ih hrecord (record p report outcome d).1
      rw [← record_snd p report] at hrest
      dsimp only
      rw [← record_snd p report]
      exact hrest

theorem tracks_flush : Tracks b h bs c.flush.2 (agreedAtFlush b h c last) := by
  unfold agreedAtFlush
  cases hf : c.frame.flushed with
  | true =>
    simp only [flush, hf, ↓reduceIte]
    exact ht
  | false =>
    have hflushing : Keeps h b.component c c.flushing := .of_eq rfl rfl
    have hqueue : Keeps h b.component c.flushing.reap.2 c.drained := by
      unfold drained
      generalize c.flushing.reap.2 = d
      exact .of_eq rfl rfl
    have hdrained := hflushing.trans ((keeps_reap c.flushing).trans hqueue)
    have happly := tracks_applyAll (ht.keeps hdrained) halone c.due
      { reaped := c.flushing.reap.1 }
    rw [flush_eq hf]
    generalize applyAll c.due { reaped := c.flushing.reap.1 } c.drained = x at happly
    obtain ⟨result, d⟩ := x
    cases result with
    | error overflow => exact happly
    | ok report => exact happly.keeps (.of_eq rfl rfl)

/-! ### Passes -/

omit ht halone

theorem pass?_eq_map (c : Coordinator PropertyBag σ) (direction : Direction) (j : Handle) :
    c.pass? direction j = (c.pair? j).map fun x =>
      (x.1, c.table.synchronize direction j x.2.1 x.2.2 {}) := by
  unfold pass? pair?
  cases c.registry.resolve? j with
  | none => rfl
  | some host =>
    cases hrow : c.world.row? j with
    | none => rfl
    | some row =>
      dsimp only
      rw [(World.row?_eq_some_iff.mp hrow).2, Option.map_map]
      rfl

variable (hb : b.KeepsChanged)

include ht halone hb

/-- What a pass over an object and a row makes of the base. -/
theorem base_synchronize (direction : Direction) {object : PropertyBag} {row : Row}
    (hbase : ∀ {v cell}, last = some v → row.cell? b.component = some cell →
      cell.synced.agrees v = true) {v : Value} {cell' : Cell}
    (hlast : (if b.meetsNaN object row then none
      else (b.agreement (c.table.synchronize direction h object row {}).object
        (c.table.synchronize direction h object row {}).row).or last) = some v)
    (hc : (c.table.synchronize direction h object row {}).row.cell? b.component = some cell') :
    cell'.synced.agrees v = true := by
  have halone' : b.Alone c.table.bindings := ht.bindings ▸ halone
  split at hlast
  · cases hlast
  rename_i hnan
  cases hx : object.get? b.capability with
  | none =>
    obtain ⟨hproperty, hcell⟩ : Pass.Spares b { object, row }
        (c.table.synchronize direction h object row {}) :=
      Table.spares_synchronize halone' (.inl hx) direction h {}
    generalize c.table.synchronize direction h object row {} = p at *
    rw [Binding.agreement, hproperty, show object.get? b.capability = none from hx] at hlast
    exact hbase hlast (hcell ▸ hc)
  | some x =>
    cases hcell : row.cell? b.component with
    | none =>
      have hspares : Pass.Spares b { object, row }
          (c.table.synchronize direction h object row {}) :=
        Table.spares_synchronize halone' (.inr hcell) direction h {}
      rw [hspares.cell, show row.cell? b.component = none from hcell] at hc
      cases hc
    | some cell =>
      simp only [Binding.meetsNaN, hx, Row.value?, hcell, Option.map_some, Option.any_some,
        Bool.or_eq_true, not_or, Bool.not_eq_true] at hnan
      have hsides := Table.sides_synchronize halone' hb hx hcell hnan.1 hnan.2 direction h {}
      have hmerged := Binding.base_merged direction hnan.1 hnan.2
      generalize c.table.synchronize direction h object row {} = p at *
      generalize Binding.merged direction x cell = m at *
      obtain rfl : m.2 = cell' := Option.some.inj (hsides.cell.symm.trans hc)
      simp only [Binding.agreement, hsides.property, Row.value?, hsides.cell,
        Option.map_some] at hlast
      dsimp only at hmerged
      split at hmerged
      · rename_i hagrees
        rw [if_pos hagrees] at hlast
        cases hlast
        exact hmerged
      · rename_i hdiffers
        rw [if_neg hdiffers] at hlast
        rw [hmerged]
        exact hbase hlast hcell

theorem tracks_visit (direction : Direction) (j : Handle) :
    Tracks b h bs (visit direction ({}, c) j).2
      (if j = h then agreedAtPass b h c direction last else last) := by
  obtain ⟨k, hvisit⟩ := c.visit_eq direction {} j
  rw [hvisit, pass?_eq_map]
  cases hpair : c.pair? j with
  | none =>
    have hlast : (if j = h then agreedAtPass b h c direction last else last) = last := by
      split
      · rename_i hj
        rw [agreedAtPass, ← hj, hpair]
      · rfl
    rw [hlast]
    exact ht
  | some x =>
    obtain ⟨host, object, row⟩ := x
    obtain ⟨-, -, hrow⟩ := pair?_eq_some_iff.mp hpair
    dsimp only [Option.map_some]
    have hhandle : (c.table.synchronize direction j object row {}).row.handle = j :=
      (c.table.alike_synchronize direction j object row {}).handle.trans
        (World.row?_eq_some_iff.mp hrow).2
    have hcell := c.world.row?_modify (j := j)
      (f := fun _ => (c.table.synchronize direction j object row {}).row)
      (fun _ _ => hhandle) h
    refine ⟨ht.bindings, fun {v cell'} hlast hc => ?_⟩
    replace hc : ((c.world.modify j fun _ =>
        (c.table.synchronize direction j object row {}).row).row? h).bind
          (fun row => row.cell? b.component) = some cell' := by
      rw [← hc, World.cell?]
      show _ = ((c.world.store _).row? h).bind _
      rw [World.store, hhandle]
    rw [hcell] at hc
    by_cases hj : j = h
    · subst hj
      rw [if_pos rfl, hrow] at hc
      rw [if_pos rfl, agreedAtPass, hpair] at hlast
      refine base_synchronize ht halone hb direction (fun hlast hcell => ?_) hlast hc
      exact ht.base hlast (by rw [World.cell?, hrow]; exact hcell)
    · rw [if_neg (Ne.symm hj)] at hc
      rw [if_neg hj] at hlast
      exact ht.base hlast hc

theorem tracks_visits (direction : Direction) (js : List Handle) (report : SyncReport) :
    Tracks b h bs (js.foldl (visit direction) (report, c)).2
      (agreedAtPasses b h direction js c last) := by
  induction js generalizing report c last with
  | nil => exact ht
  | cons j js ih =>
    rw [List.foldl_cons, visit_merge]
    exact ih (tracks_visit ht halone hb direction j) _

theorem tracks_synchronizeAll (direction : Direction) :
    Tracks b h bs (c.synchronizeAll direction).2 (agreedAtAll b h c direction last) := by
  rw [synchronizeAll_eq]
  have hstart : Keeps h b.component c c.synchronizing := .of_eq rfl rfl
  have hall := tracks_visits (ht.keeps hstart) halone hb direction c.boundRows {}
  exact hall.keeps (.foldl (f := reportSynchronization) (fun _ _ => .of_eq rfl rfl) _ _)

omit ht halone hb in
/-- A pass over an entity that has a host object and a row. -/
theorem synchronize_of_pair? {j : Handle} {x : HostRef × PropertyBag × Row}
    (hx : c.pair? j = some x) (direction : Direction) :
    c.synchronize j direction = (.ok (visit direction ({}, c) j).1,
      (visit direction ({}, c) j).1.failures.foldl reportSynchronization
        (visit direction ({}, c) j).2) := by
  obtain ⟨host, object, row⟩ := x
  obtain ⟨hhost, hobject, hrow⟩ := pair?_eq_some_iff.mp hx
  obtain ⟨e, hbound, rfl⟩ := Registry.resolve?_eq_some_iff.mp hhost
  simp only [synchronize, visit, hhost, hbound, hobject, hrow, SyncReport.empty_merge]

omit ht halone hb in
theorem synchronize_of_pair?_eq_none {j : Handle} (hx : c.pair? j = none)
    (direction : Direction) : (c.synchronize j direction).2 = c := by
  unfold synchronize
  cases hbound : c.registry.bound j with
  | error error => rfl
  | ok e =>
    have hhost := Registry.resolve?_eq_some_iff.mpr ⟨e, hbound, rfl⟩
    dsimp only
    cases hobject : c.hosts.find? e.host with
    | none => rfl
    | some object =>
      cases hrow : c.world.row? j with
      | none => rfl
      | some row =>
        rw [pair?_eq_some_iff.mpr ⟨hhost, hobject, hrow⟩] at hx
        cases hx

theorem tracks_synchronize (direction : Direction) (j : Handle) :
    Tracks b h bs (c.synchronize j direction).2
      (if j = h then agreedAtPass b h c direction last else last) := by
  cases hx : c.pair? j with
  | none =>
    rw [synchronize_of_pair?_eq_none hx]
    split
    · rename_i hj
      subst hj
      rw [agreedAtPass, hx]
      exact ht
    · exact ht
  | some x =>
    rw [synchronize_of_pair? hx]
    exact (tracks_visit ht halone hb direction j).keeps
      (.foldl (f := reportSynchronization) (fun _ _ => .of_eq rfl rfl) _ _)

/-! ### Frames and runs -/

omit hb in
theorem tracks_beginStep (delta : Duration) :
    Tracks b h bs (c.beginStep delta).2 (agreedAtBegin b h c delta last) := by
  unfold beginStep agreedAtBegin
  cases c.frame.advance delta with
  | error overflow => exact ht
  | ok frame =>
    have hframe : Keeps h b.component c { c with frame } := .of_eq rfl rfl
    have hflush := tracks_flush (ht.keeps hframe) halone
    show Tracks b h bs (flushOnce { c with frame }).2 (agreedAtFlush b h { c with frame } last)
    unfold flushOnce
    split
    · rename_i hf
      rw [agreedAtFlush, if_pos hf]
      exact ht.keeps hframe
    · exact hflush

theorem tracks_step (delta : Duration) :
    Tracks b h bs (c.step delta).2 (agreedAt b h c last (.step delta)) := by
  have hbegin := tracks_beginStep ht halone delta
  rw [← stepWith_synchronizeAll]
  simp only [stepWith, agreedAt]
  generalize c.beginStep delta = x at hbegin ⊢
  obtain ⟨result, d⟩ := x
  obtain overflow | error | flush := result
  · exact hbegin
  · exact hbegin
  · have hall := tracks_synchronizeAll hbegin halone hb .bidirectional
    dsimp only at hall ⊢
    have hdispatch := hall.keeps (keeps_dispatch _)
    unfold endStep
    split <;> rename_i heq <;> rw [heq] at hdispatch
    · exact hdispatch
    · exact hdispatch.keeps (.of_eq rfl rfl)

theorem tracks_act (a : Action PropertyBag σ) :
    Tracks b h bs (c.act a) (agreedAt b h c last a) := by
  cases a with
  | bind host => exact tracks_bind ht halone host
  | unbind j => exact ht.keeps (c.keeps_unbind j)
  | unbindHost id => exact ht.keeps (c.keeps_unbindHost id)
  | reap => exact ht.keeps c.keeps_reap
  | addComponent j id value => exact tracks_addComponent ht j id value
  | removeComponent j id => exact ht.keeps (c.keeps_removeComponent j id)
  | writeComponent j id value =>
    show Tracks b h bs (c.writeComponent j id value).2 last
    unfold writeComponent
    split
    · exact ht.keeps (c.keeps_write j id value)
    · exact ht
  | writeWorld j id value =>
    show Tracks b h bs (c.writeWorld j id value).2 last
    unfold writeWorld
    split
    · exact ht.keeps (c.keeps_write j id value)
    · exact ht
  | flush => exact tracks_flush ht halone
  | synchronize j direction => exact tracks_synchronize ht halone hb direction j
  | synchronizeAll direction => exact tracks_synchronizeAll ht halone hb direction
  | dispatch => exact ht.keeps c.keeps_dispatch
  | step delta => exact tracks_step ht halone hb delta
  | advance delta =>
    show Tracks b h bs (c.advance delta) last
    unfold advance
    split
    · exact ht
    · exact ht.keeps (.of_eq rfl rfl)
  | registerComponent name => exact ⟨ht.bindings, ht.base⟩
  | surround _ | enqueue _ | subscribe _ _ _ | unsubscribe _ _ | publish _
  | subscribeNamed _ _ | unsubscribeNamed _ | signal _ _ | delaySignal _ _ _
  | listenForIncidents | takeIncidents => exact ht.keeps (.of_eq rfl rfl)

theorem tracks_foldl_act (as : List (Action PropertyBag σ)) :
    Tracks b h bs (c.run as) (lastAgreed b h c as last) := by
  induction as generalizing c last with
  | nil => exact ht
  | cons a as ih => exact ih (tracks_act ht halone hb a)

omit ht halone in
/-- After every run the base of the component is what both sides last agreed on. -/
theorem tracks_run (table : Table) (settings : Settings)
    (surroundings : Surroundings PropertyBag σ) (journal : Journal)
    (as : List (Action PropertyBag σ)) (halone : b.Alone table.bindings) :
    Tracks b h table.bindings ((withTable table settings surroundings journal).run as)
      (lastAgreed b h (withTable table settings surroundings journal) as none) :=
  have hstart : Tracks b h table.bindings
      (withTable table settings surroundings journal) none := .none_of_bindings rfl
  tracks_foldl_act hstart halone hb as

end Tracks

/-! ## Edits -/

section Edits

variable {σ : Type} {b : Binding} {h : Handle} {c : Coordinator PropertyBag σ} {x : Value}
  {cell : Cell}

/-- The host object of an entity, which the host runtime owns, has a value under the capability of
a binding, and the entity has a cell for its component. -/
def Holds (b : Binding) (h : Handle) (x : Value) (cell : Cell) (c : Coordinator PropertyBag σ) :
    Prop :=
  ∃ host object row, c.pair? h = some (host, object, row) ∧
    c.hosts.cells.get? host.address = some ⟨object, true⟩ ∧
    object.get? b.capability = some x ∧ row.cell? b.component = some cell

/-- What a visit makes of both sides is what a pass over the object and the row makes of them. -/
theorem Holds.visit (hh : c.Holds b h x cell) (direction : Direction) {x' : Value} {cell' : Cell}
    (hsides : ∀ object row, object.get? b.capability = some x → row.cell? b.component = some cell →
      Pass.Sides b x' cell' (c.table.synchronize direction h object row {})) :
    (visit direction ({}, c) h).2.Holds b h x' cell' := by
  obtain ⟨host, object, row, hpair, hcell, hproperty, hvalue⟩ := hh
  obtain ⟨hhost, -, hrow⟩ := pair?_eq_some_iff.mp hpair
  obtain ⟨k, hvisit⟩ := c.visit_eq direction {} h
  rw [pass?_eq_map, hpair] at hvisit
  rw [hvisit]
  have hboth := hsides object row hproperty hvalue
  have hhandle : (c.table.synchronize direction h object row {}).row.handle = h :=
    (c.table.alike_synchronize direction h object row {}).handle.trans
      (World.row?_eq_some_iff.mp hrow).2
  dsimp only [Option.map_some]
  generalize c.table.synchronize direction h object row {} = p at hboth hhandle ⊢
  have hrow' : (c.world.store p.row).row? h = some p.row := by
    rw [World.store, hhandle, World.row?_modify _ fun _ _ => hhandle, if_pos rfl, hrow]
    rfl
  have hcell' : (c.hosts.putBack host p.object).cells.get? host.address =
      some ⟨p.object, true⟩ := by
    rw [Hosts.get?_putBack, if_pos rfl, hcell]
    rfl
  refine ⟨host, p.object, p.row, pair?_eq_some_iff.mpr ⟨hhost, ?_, hrow'⟩, hcell',
    hboth.property, hboth.cell⟩
  show (c.hosts.putBack host p.object).find? host = some p.object
  rw [Hosts.find?, hcell']
  rfl

/-- What a pass over the entity makes of both sides. -/
theorem Holds.synchronize (hh : c.Holds b h x cell) (hb : b.KeepsChanged)
    (halone : b.Alone c.table.bindings) (hx : x.hasNaN = false) (hy : cell.value.hasNaN = false)
    (direction : Direction) :
    ∃ report, (c.synchronize h direction).1 = .ok report ∧
      (c.synchronize h direction).2.Holds b h (Binding.merged direction x cell).1
        (Binding.merged direction x cell).2 := by
  have hvisit := hh.visit direction fun object row hproperty hvalue =>
    Table.sides_synchronize halone hb hproperty hvalue hx hy direction h {}
  obtain ⟨host, object, row, hpair, -⟩ := hh
  rw [synchronize_of_pair? hpair]
  refine ⟨_, rfl, ?_⟩
  obtain ⟨j, is, hreports⟩ := foldl_reportSynchronization
    (Coordinator.visit direction ({}, c) h).1.failures (Coordinator.visit direction ({}, c) h).2
  rw [hreports]
  exact hvisit

/-- If no component was added over it since, an edit on the side of the entity is kept : where the
host still holds what both sides last agreed on, the base of the component is that value, and
the next pass in both directions gives the host what the component holds. -/
theorem edit_kept_run (table : Table) (settings : Settings)
    (surroundings : Surroundings PropertyBag σ) (journal : Journal)
    (as : List (Action PropertyBag σ)) (hb : b.KeepsChanged) (halone : b.Alone table.bindings)
    {v : Value}
    (hlast : lastAgreed b h (withTable table settings surroundings journal) as none = some v)
    (hh : ((withTable table settings surroundings journal).run as).Holds b h x cell)
    (hhost : x.agrees v = true) (hy : cell.value.hasNaN = false)
    (hedited : x.agrees cell.value = false) :
    let c := (withTable table settings surroundings journal).run as
    cell.synced.agrees v = true ∧ ∃ report, (c.synchronize h .bidirectional).1 = .ok report ∧
      (c.synchronize h .bidirectional).2.Holds b h cell.value
        { cell with synced := cell.value } := by
  intro c
  have htracks := tracks_run (b := b) (h := h) hb table settings surroundings journal as halone
  have hcell : c.world.cell? h b.component = some cell := by
    obtain ⟨_, _, row, hpair, -, -, hcell⟩ := hh
    obtain ⟨-, -, hrow⟩ := pair?_eq_some_iff.mp hpair
    rw [World.cell?, hrow]
    exact hcell
  have hbase := htracks.base hlast hcell
  have hagrees : x.agrees cell.synced = true :=
    Value.agrees_trans hhost ((Value.agrees_comm _ _).trans hbase)
  have hx : x.hasNaN = false :=
    (Value.agrees_self_iff x).mp (Value.agrees_trans hhost ((Value.agrees_comm _ _).trans hhost))
  have hpass := hh.synchronize hb (htracks.bindings ▸ halone) hx hy .bidirectional
  rw [Binding.merged_of_edit hedited hagrees] at hpass
  exact ⟨hbase, hpass⟩

/-- Adding a component over itself moves the base to a value that the host does not hold. The next
pass in both directions takes this for a change of the host, and drops what was added. -/
theorem synchronize_addComponent (hb : b.KeepsChanged) (halone : b.Alone c.table.bindings)
    (hh : c.Holds b h x cell) {y : Value} (hx : x.hasNaN = false) (hy : y.hasNaN = false)
    (hdiffers : x.agrees y = false) :
    let d := (c.addComponent h b.component y).2
    d.Holds b h x (Cell.agreed y) ∧
      (d.synchronize h .bidirectional).2.Holds b h x (Cell.agreed x) := by
  intro d
  obtain ⟨host, object, row, hpair, howned, hproperty, hcell⟩ := hh
  obtain ⟨hhost, hobject, hrow⟩ := pair?_eq_some_iff.mp hpair
  obtain ⟨e, hbound, -⟩ := Registry.resolve?_eq_some_iff.mp hhost
  have hd : d = { c with world := c.world.modify h fun r => r.insert b.component y } := by
    simp [d, addComponent, hbound, hrow, Row.contains, hcell]
  have hadded : d.Holds b h x (Cell.agreed y) := by
    rw [hd]
    refine ⟨host, object, row.insert b.component y, pair?_eq_some_iff.mpr ⟨hhost, hobject, ?_⟩,
      howned, hproperty, by rw [Row.cell?_insert, if_pos rfl]⟩
    have hinserted := c.world.row?_modify (j := h) (f := fun r => r.insert b.component y)
      (fun r hr => (World.row?_eq_some_iff.mp hr).2) h
    exact hinserted.trans (by rw [if_pos rfl, hrow]; rfl)
  have htable : d.table = c.table := c.table_addComponent h b.component y
  obtain ⟨-, -, hpass⟩ := hadded.synchronize hb (htable ▸ halone) hx hy .bidirectional
  rw [Binding.merged_of_moved hdiffers (show x.agrees (Cell.agreed y).synced = false from hdiffers)]
    at hpass
  exact ⟨hadded, hpass⟩

end Edits

/-- As `sample`, with a binding that keeps the side that changed. -/
def merging : Coordinator PropertyBag Unit :=
  withTable
    { sample.table with bindings :=
      [⟨"health", ⟨0⟩, "Health", .bidirectional, .merge "changed_side" Resolver.changedSide⟩] }
    {} sample.surroundings {}

/-- A component is written after its entity was bound. -/
theorem edit_kept_run_written :
    let b : Binding :=
      ⟨"health", ⟨0⟩, "Health", .bidirectional, .merge "changed_side" Resolver.changedSide⟩
    let as := [.bind ⟨⟨7⟩, 0⟩, .writeComponent ⟨0, 0⟩ ⟨0⟩ (.int 5)]
    lastAgreed b ⟨0, 0⟩ merging as none = some (.int 3) ∧
      (merging.run as).Holds b ⟨0, 0⟩ (.int 3) ⟨.int 5, .int 3⟩ ∧
      ((merging.run as).synchronize ⟨0, 0⟩ .bidirectional).2.Holds b ⟨0, 0⟩ (.int 5)
        (Cell.agreed (.int 5)) := by
  intro b as
  have hb : b.KeepsChanged := ⟨rfl, _, rfl⟩
  have halone : b.Alone merging.table.bindings := ⟨[], [], rfl, by simp⟩
  have hlast : lastAgreed b ⟨0, 0⟩ merging as none = some (.int 3) := by decide +kernel
  have hh : (merging.run as).Holds b ⟨0, 0⟩ (.int 3) ⟨.int 5, .int 3⟩ :=
    ⟨⟨⟨7⟩, 0⟩, ⟨[("health", .int 3)]⟩, ⟨⟨0, 0⟩, [(⟨0⟩, ⟨.int 5, .int 3⟩)]⟩, by decide +kernel,
      rfl, by decide, by decide⟩
  obtain ⟨-, _, -, hkept⟩ := edit_kept_run merging.table merging.settings merging.surroundings
    merging.journal as hb halone hlast hh rfl rfl rfl
  exact ⟨hlast, hh, hkept⟩

/-- A component is added over itself after its entity was bound. The host still holds what both
sides agreed on then, but the next pass in both directions drops what was added. -/
theorem edit_dropped_merging :
    let c := merging.run [.bind ⟨⟨7⟩, 0⟩]
    let d := c.act (.addComponent ⟨0, 0⟩ ⟨0⟩ (.int 5))
    let e := d.act (.synchronize ⟨0, 0⟩ .bidirectional)
    c.world.cell? ⟨0, 0⟩ ⟨0⟩ = some (Cell.agreed (.int 3)) ∧
      d.world.cell? ⟨0, 0⟩ ⟨0⟩ = some (Cell.agreed (.int 5)) ∧
      d.hosts.find? ⟨⟨7⟩, 0⟩ = c.hosts.find? ⟨⟨7⟩, 0⟩ ∧
      e.world.value? ⟨0, 0⟩ ⟨0⟩ = some (.int 3) ∧
      e.hosts.find? ⟨⟨7⟩, 0⟩ = some ⟨[("health", .int 3)]⟩ := by
  decide +kernel

end Coordinator

end Tether
