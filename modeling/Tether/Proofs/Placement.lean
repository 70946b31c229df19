import Tether.Proofs.Evolution

/-!
# Where entries and rows lie

Some of what holds of a population does not depend on slot numbers that last : a host identity is
mapped to the slot of its entry, so no two entries have one identity, and a row lies at the slot
of the handle that it carries. `Coordinator.placed_run` says that this holds after every run,
however many slots there are.
-/

set_option linter.unusedSectionVars false

namespace Tether

namespace Population

/-- Identities are mapped to the slots of their entries, and rows lie at their slots. -/
structure Placed (p : Population) : Prop where
  mapped : ∀ {i e}, p.entryAt? i = some e →
    ∃ h, p.registry.handleOf? e.host.id = some h ∧ h.slot = i
  rows : ∀ {i row}, p.rowAt? i = some row → row.handle.slot = i

theorem placed_empty : Placed ⟨{}, {}⟩ := by
  constructor <;> simp [entryAt?, rowAt?]

/-- No two entries have one host identity. -/
theorem Placed.eq_of_host {p : Population} (hp : p.Placed) {i j : Nat} {e e' : Entry}
    (he : p.entryAt? i = some e) (he' : p.entryAt? j = some e') (hid : e.host.id = e'.host.id) :
    i = j := by
  obtain ⟨h, hh, rfl⟩ := hp.mapped he
  obtain ⟨h', hh', rfl⟩ := hp.mapped he'
  rw [hid, hh'] at hh
  rw [Option.some.inj hh]

theorem Placed.alike {p q : Population} (hp : p.Placed) (h : p.Alike q) : q.Placed where
  mapped he := by
    obtain ⟨d, hd, -, hhost, -⟩ := h.entry_of he
    rw [← hhost, Registry.handleOf?, h.byHost]
    exact hp.mapped hd
  rows hrow := by
    obtain ⟨row, hr, ha⟩ := h.row_of hrow
    rw [ha.handle]
    exact hp.rows hr

theorem Placed.modify {r : Registry} {w : World} (hp : Placed ⟨r, w⟩) {h : Handle}
    {f : Row → Row} (hf : ∀ row, row.handle = h → (f row).handle = h) :
    Placed ⟨r, w.modify h f⟩ where
  mapped he := hp.mapped he
  rows {i row} hrow := by
    rw [rowAt?, World.get?_rows_modify] at hrow
    split at hrow
    · rename_i hi
      obtain ⟨row', hget, rfl⟩ := Option.map_eq_some_iff.mp hrow
      obtain ⟨found, hfound⟩ := Option.isSome_iff_exists.mp hi.2
      obtain ⟨hslot, hhandle⟩ := World.row?_eq_some_iff.mp hfound
      rw [hi.1, hslot] at hget
      cases hget
      rw [hf _ hhandle, hi.1]
    · exact hp.rows hrow

theorem Placed.store {r : Registry} {w : World} (hp : Placed ⟨r, w⟩) (row : Row) :
    Placed ⟨r, w.store row⟩ :=
  hp.modify fun _ _ => rfl

theorem Placed.spawn {r : Registry} {w : World} (hp : Placed ⟨r, w⟩) (h : Handle) :
    Placed ⟨r, w.spawn h⟩ where
  mapped he := hp.mapped he
  rows {i row} hrow := by
    unfold World.spawn at hrow
    split at hrow
    · exact hp.rows hrow
    · rw [rowAt?, Slots.get?_put] at hrow
      split at hrow
      · rename_i hi
        cases hrow
        exact hi.symm
      · exact hp.rows hrow

theorem Placed.despawn {r : Registry} {w : World} (hp : Placed ⟨r, w⟩) (h : Handle) :
    Placed ⟨r, w.despawn h⟩ where
  mapped he := hp.mapped he
  rows {i row} hrow := by
    unfold World.despawn at hrow
    split at hrow
    · rw [rowAt?, Slots.get?_clear] at hrow
      split at hrow
      · cases hrow
      · exact hp.rows hrow
    · exact hp.rows hrow

theorem Placed.without {r : Registry} {w : World} (hp : Placed ⟨r, w⟩) {e : Entry}
    (he : r.entries.get? e.handle.slot = some e) : Placed ⟨r.without e, w⟩ where
  mapped {i e'} he' := by
    rw [entryAt?, Registry.get?_entries_without] at he'
    split at he'
    · cases he'
    · rename_i hi
      have hne : e'.host.id ≠ e.host.id := fun hid => hi (hp.eq_of_host he' he hid)
      obtain ⟨h, hh, hslot⟩ := hp.mapped he'
      have herase : (r.without e).byHost = r.byHost.erase e.host.id.number := rfl
      have hhandle := Registry.handleOf?_of_erase herase
      exact ⟨h, by rw [hhandle, if_neg hne]; exact hh, hslot⟩
  rows hrow := hp.rows hrow

theorem Placed.flagged {r : Registry} {w : World} (hp : Placed ⟨r, w⟩) {host : HostRef}
    (hf : r.handleOf? host.id = none) (fine : Bool) : Placed ⟨r.flagged host fine, w⟩ where
  mapped {i e} he := by
    have hhandle := Registry.handleOf?_of_insert (r.byHost_flagged host fine)
    rw [entryAt?, Registry.get?_entries_flagged] at he
    split at he
    · rename_i hi
      cases he
      exact ⟨_, by rw [hhandle, if_pos rfl], hi.symm⟩
    · obtain ⟨h, hh, hslot⟩ := hp.mapped he
      have hne : e.host.id ≠ host.id := fun hid => by
        rw [hid] at hh
        exact absurd (hf.symm.trans hh) (by simp)
      exact ⟨h, by rw [hhandle, if_neg hne]; exact hh, hslot⟩
  rows hrow := hp.rows hrow

end Population

namespace Coordinator

variable {ο σ : Type} [HostObject ο] {c : Coordinator ο σ} (hp : c.population.Placed)
include hp

theorem Calm.placed {d : Coordinator ο σ} (h : c.Calm d) : d.population.Placed :=
  hp.alike h.alike

theorem placed_unbind (h : Handle) : (c.unbind h).2.population.Placed := by
  cases hb : c.registry.bound h with
  | error error =>
    rw [unbind_of_error hb]
    exact hp
  | ok e =>
    obtain ⟨hf, -⟩ := Registry.bound_eq_ok_iff.mp hb
    obtain ⟨hget, rfl⟩ := Registry.find?_eq_some_iff.mp hf
    rw [unbind_of_bound hb]
    exact (hp.without hget).despawn e.handle

theorem placed_attach (host : HostRef) : (c.attach host).2.population.Placed := by
  cases ho : c.hosts.find? host with
  | none =>
    rw [attach_of_gone ho]
    exact hp
  | some object =>
    cases hf : c.registry.handleOf? host.id with
    | some h =>
      rw [attach_of_bound ho hf]
      exact hp
    | none =>
      rw [attach_of_fresh ho hf]
      obtain ⟨fine, hregistry⟩ := c.registry_attached host object
      have hopened := (hp.flagged hf fine).spawn c.registry.allocator.alloc.1
      have hfilled : Population.Placed ⟨c.registry.flagged host fine,
          ((c.opening host).fill c.registry.allocator.alloc.1 host object).2.2.world⟩ := by
        unfold fill
        split
        · exact hopened
        · exact hopened.store _
      show Population.Placed ⟨(c.attached host object).registry, (c.attached host object).world⟩
      rw [hregistry, attached, world_complete]
      exact hfilled

theorem placed_bind (host : HostRef) : (c.bind host).2.population.Placed := by
  have hattach := placed_attach hp host
  rcases c.bind_snd host with heq | ⟨h, heq⟩
  · rw [heq]
    exact hattach
  · rw [heq]
    exact placed_unbind (c := (c.attach host).2.note _) hattach h

theorem placed_unbindHost (id : HostId) : (c.unbindHost id).2.population.Placed := by
  unfold unbindHost
  split
  · exact hp
  · exact placed_unbind hp _

theorem placed_addComponent (h : Handle) (id : ComponentId) (value : Value) :
    (c.addComponent h id value).2.population.Placed := by
  unfold addComponent
  split
  · exact hp
  · split
    · exact hp
    · have hinsert := hp.modify (h := h) (f := fun r => r.insert id value) fun _ hr => hr
      dsimp only
      split <;> exact hinsert

theorem placed_removeComponent (h : Handle) (id : ComponentId) :
    (c.removeComponent h id).2.population.Placed := by
  unfold removeComponent
  split
  · exact hp
  · split
    · exact hp
    · exact hp.modify (h := h) (f := fun r => r.erase id) fun _ hr => hr

theorem placed_foldl_reapOne (hs : List Handle) (count : Nat) :
    (hs.foldl reapOne (count, c)).2.population.Placed := by
  induction hs generalizing count c with
  | nil => exact hp
  | cons h hs ih =>
    have hone := placed_unbind hp h
    have hreaped : (reapOne (count, c) h).2.population.Placed := by
      unfold reapOne
      dsimp only
      split <;> rename_i heq <;> rw [heq] at hone <;> exact hone
    exact ih hreaped _

theorem placed_reap : c.reap.2.population.Placed := by
  have hfold := placed_foldl_reapOne hp (c.registry.orphans c.hosts) 0
  unfold reap
  dsimp only
  split <;> exact hfold

theorem placed_perform (m : Mutation) : (c.perform m).2.population.Placed := by
  cases m with
  | create host => exact placed_bind hp host
  | destroy target =>
    cases target with
    | handle h => exact placed_unbind hp h
    | host id => exact placed_unbindHost hp id
  | addComponent h id value => exact placed_addComponent hp h id value
  | removeComponent h id => exact placed_removeComponent hp h id
  | signal name entities delay => exact Calm.placed hp (c.calm_delaySignal name entities _)

theorem placed_applyAll (ps : List Pending) (report : FlushReport) :
    (applyAll ps report c).2.population.Placed := by
  induction ps generalizing report c with
  | nil => exact hp
  | cons p ps ih =>
    have hone := placed_perform hp p.mutation
    unfold applyAll
    generalize c.perform p.mutation = x at hone
    obtain ⟨result, d⟩ := x
    cases result with
    | error overflow => exact hone
    | ok outcome => exact ih (Calm.placed hone (calm_record p report outcome d)) _

theorem placed_flush : c.flush.2.population.Placed := by
  cases hf : c.frame.flushed with
  | true =>
    simp only [flush, hf, ↓reduceIte]
    exact hp
  | false =>
    have hreap := placed_reap (c := c.flushing) hp
    have happly := placed_applyAll (c := c.drained) hreap c.due { reaped := c.flushing.reap.1 }
    rw [flush_eq hf]
    generalize applyAll c.due { reaped := c.flushing.reap.1 } c.drained = r at happly
    obtain ⟨result, d⟩ := r
    cases result <;> exact happly

theorem placed_flushOnce : c.flushOnce.2.population.Placed := by
  unfold flushOnce
  split
  · exact hp
  · exact placed_flush hp

theorem placed_step (delta : Duration) : (c.step delta).2.population.Placed := by
  unfold step
  split
  · exact hp
  · rename_i frame _
    have hflush := placed_flushOnce (c := { c with frame }) hp
    split <;> rename_i hd <;> rw [hd] at hflush
    · exact hflush
    · exact hflush
    · rename_i d
      have hsync := Calm.placed hflush (d.calm_synchronizeAll .bidirectional)
      have hdispatch := hsync.alike (d.synchronizeAll .bidirectional).2.calm_dispatch.alike
      dsimp only
      split <;> rename_i he <;> rw [he] at hdispatch <;> exact hdispatch

theorem placed_act (a : Action ο σ) : (c.act a).population.Placed := by
  cases a with
  | bind host => exact placed_bind hp host
  | unbind h => exact placed_unbind hp h
  | unbindHost id => exact placed_unbindHost hp id
  | reap => exact placed_reap hp
  | addComponent h id value => exact placed_addComponent hp h id value
  | removeComponent h id => exact placed_removeComponent hp h id
  | writeComponent h id value => exact Calm.placed hp (c.calm_writeComponent h id value)
  | writeWorld h id value => exact Calm.placed hp (c.calm_writeWorld h id value)
  | flush => exact placed_flush hp
  | synchronize h direction => exact Calm.placed hp (c.calm_synchronize h direction)
  | synchronizeAll direction => exact Calm.placed hp (c.calm_synchronizeAll direction)
  | dispatch => exact hp.alike c.calm_dispatch.alike
  | step delta => exact placed_step hp delta
  | advance delta => exact Calm.placed hp (c.calm_advance delta)
  | publish s => exact Calm.placed hp (c.calm_publish s)
  | surround _ | registerComponent _ | enqueue _ | subscribe _ _ _ | unsubscribe _ _
  | subscribeNamed _ _ | unsubscribeNamed _ | signal _ _ | delaySignal _ _ _
  | listenForIncidents | takeIncidents => exact hp

theorem placed_foldl_act (as : List (Action ο σ)) : (c.run as).population.Placed := by
  induction as generalizing c with
  | nil => exact hp
  | cons a as ih => exact ih (placed_act hp a)

omit hp in
theorem placed_run (table : Table) (settings : Settings) (surroundings : Surroundings ο σ)
    (journal : Journal) (as : List (Action ο σ)) :
    ((withTable table settings surroundings journal).run as).population.Placed :=
  placed_foldl_act (c := withTable table settings surroundings journal) Population.placed_empty as

end Coordinator

end Tether
