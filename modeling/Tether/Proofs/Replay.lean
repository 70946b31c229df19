import Tether.Proofs.Structure

/-!
# The signals tell the whole story

Whoever listens to the lifecycle signals from the beginning can keep a `Replica` of who is
bound and with which components, without ever asking the coordinator. `Replica.apply` is how a
signal changes it, and it has no answer for a signal that makes no sense : an entity created
twice, a component added twice or removed without being there, or anything about an entity that
is not there.

Each elementary change of a population raises just the signals that take the replica of what
was to the replica of what is (`Population.Change.replay`), so replaying all that a coordinator
ever raised gives the replica of its present state (`Coordinator.replay_run`). What the signals
carry beside that is what the world held when they were raised (`Raised.Faithful`).
-/

set_option linter.unusedSectionVars false

namespace Tether

/-! ## Replicas -/

/-- For each entity its host identity, and which components it has. -/
abbrev Replica := Handle → Option (HostId × (ComponentId → Bool))

namespace Replica

/-- The replica with nobody in it. -/
def empty : Replica := fun _ => none

/-- Replace what is known of an entity. -/
def set (m : Replica) (h : Handle) (known : Option (HostId × (ComponentId → Bool))) : Replica :=
  fun j => if j = h then known else m j

theorem set_self (m : Replica) (h : Handle) (known : Option (HostId × (ComponentId → Bool))) :
    m.set h known h = known :=
  if_pos rfl

theorem set_of_ne (m : Replica) {h j : Handle} (hj : j ≠ h)
    (known : Option (HostId × (ComponentId → Bool))) : m.set h known j = m j :=
  if_neg hj

theorem set_set (m : Replica) (h : Handle) (a b : Option (HostId × (ComponentId → Bool))) :
    (m.set h a).set h b = m.set h b := by
  funext j
  by_cases hj : j = h <;> simp [set, hj]

/-- What a signal changes, if it makes sense. -/
def apply (m : Replica) : Signal → Option Replica
  | .entityCreated h id =>
    match m h with
    | some _ => none
    | none => some (m.set h (some (id, fun _ => false)))
  | .componentAdded h id _ =>
    match m h with
    | none => none
    | some (host, has) =>
      if has id then none else some (m.set h (some (host, fun j => decide (j = id) || has j)))
  | .componentRemoved h id _ =>
    match m h with
    | none => none
    | some (host, has) =>
      if has id then some (m.set h (some (host, fun j => !decide (j = id) && has j))) else none
  | .entityDestroying h id _ =>
    match m h with
    | none => none
    | some (host, _) => if host = id then some (m.set h none) else none

/-- Apply signals one after another. -/
def replay (m : Replica) (ss : List Signal) : Option Replica := ss.foldlM apply m

theorem replay_append (m : Replica) (ss ts : List Signal) :
    m.replay (ss ++ ts) = (m.replay ss).bind fun m => m.replay ts :=
  List.foldlM_append

theorem replay_cons (m : Replica) (s : Signal) (ss : List Signal) :
    m.replay (s :: ss) = (m.apply s).bind fun m => m.replay ss :=
  List.foldlM_cons

theorem replay_singleton (m : Replica) (s : Signal) : m.replay [s] = m.apply s := by
  simp [replay]

/-- Components that are added one after another, none of them twice. -/
theorem replay_added {h : Handle} {host : HostId} (cells : List (ComponentId × Value))
    (hd : (cells.map Prod.fst).Nodup) {m : Replica} {has : ComponentId → Bool}
    (hm : m h = some (host, has)) (hnew : ∀ c ∈ cells, has c.1 = false) :
    m.replay (cells.map fun c => .componentAdded h c.1 c.2) =
      some (m.set h (some (host, fun j => decide (j ∈ cells.map Prod.fst) || has j))) := by
  induction cells generalizing m has with
  | nil =>
    refine congrArg some (funext fun j => ?_)
    by_cases hj : j = h <;> simp [set, hj, hm]
  | cons c cells ih =>
    rw [List.map_cons, List.nodup_cons] at hd
    have hc : has c.1 = false := hnew c (by simp)
    have hstep : m.apply (.componentAdded h c.1 c.2) =
        some (m.set h (some (host, fun j => decide (j = c.1) || has j))) := by
      simp [apply, hm, hc]
    have hrest : ∀ d ∈ cells, (decide (d.1 = c.1) || has d.1) = false := by
      intro d hdmem
      have hne : d.1 ≠ c.1 := fun heq => hd.1 (heq ▸ List.mem_map_of_mem hdmem)
      simp [hne, hnew d (List.mem_cons_of_mem _ hdmem)]
    rw [List.map_cons, replay_cons, hstep, Option.bind_some, ih hd.2 (m.set_self h _) hrest,
      set_set]
    refine congrArg (fun f => some (m.set h (some (host, f)))) (funext fun i => ?_)
    simp only [List.map_cons, List.mem_cons, Bool.decide_or]
    cases decide (i = c.1) <;> cases has i <;> simp

end Replica

/-! ## The replica of a population -/

namespace Registry

theorem resolve?_eq (r : Registry) (h : Handle) :
    r.resolve? h = ((r.find? h).filter fun e => e.state = .bound).map Entry.host := by
  ext host
  simp [resolve?_eq_some_iff, bound_eq_ok_iff, Option.filter_eq_some_iff]

end Registry

namespace Population

/-- Who is bound, to which host object, and with which components. -/
def replica (p : Population) : Replica := fun h =>
  (p.registry.resolve? h).map fun host => (host.id, fun id => (p.world.value? h id).isSome)

theorem replica_congr {p q : Population} {h : Handle}
    (he : q.entryAt? h.slot = p.entryAt? h.slot) (hr : q.rowAt? h.slot = p.rowAt? h.slot) :
    q.replica h = p.replica h := by
  simp only [entryAt?] at he
  simp only [rowAt?] at hr
  simp only [replica, Registry.resolve?_eq, Registry.find?, he, World.value?, World.row?, hr]

theorem replica_of_none {p : Population} {h : Handle}
    (he : ∀ e, p.entryAt? h.slot = some e → e.handle ≠ h) : p.replica h = none := by
  have hf : p.registry.find? h = none := by
    cases hf : p.registry.find? h with
    | none => rfl
    | some e =>
      obtain ⟨hget, hh⟩ := Registry.find?_eq_some_iff.mp hf
      exact absurd hh (he e hget)
  simp [replica, Registry.resolve?_eq, hf]

theorem replica_of_some {p : Population} {e : Entry} {row : Row}
    (he : p.entryAt? e.handle.slot = some e) (hs : e.state = .bound)
    (hr : p.rowAt? e.handle.slot = some row) (hh : row.handle = e.handle) :
    p.replica e.handle = some (e.host.id, row.contains) := by
  have hf : p.registry.find? e.handle = some e := Registry.find?_eq_some_iff.mpr ⟨he, rfl⟩
  have hrow : p.world.row? e.handle = some row := World.row?_eq_some_iff.mpr ⟨hr, hh⟩
  simp only [replica, Registry.resolve?_eq, hf, Option.filter_some, hs, decide_true, ↓reduceIte,
    Option.map_some, World.value?, hrow, Option.bind_some, Row.value?, Option.isSome_map]
  rfl

/-- An entity is in the replica with the components of its row. -/
theorem Consistent.replica_of_entryAt? {p : Population} (hp : p.Consistent) {e : Entry}
    {row : Row} (he : p.entryAt? e.handle.slot = some e)
    (hr : p.rowAt? e.handle.slot = some row) :
    p.replica e.handle = some (e.host.id, row.contains) := by
  obtain ⟨row', hr', hh⟩ := hp.rowAt?_of_entryAt? he
  obtain rfl := Option.some.inj (hr.symm.trans hr')
  exact replica_of_some he (hp.bound he) hr hh

/-- A handle other than the one at its slot is not in the replica. -/
theorem replica_of_ne {p : Population} {e : Entry} {j : Handle}
    (he : p.entryAt? e.handle.slot = some e) (hs : j.slot = e.handle.slot)
    (hj : j ≠ e.handle) : p.replica j = none := by
  refine replica_of_none fun d hd => ?_
  rw [hs, he] at hd
  rw [← Option.some.inj hd]
  exact Ne.symm hj

/-- Two populations with different entries and rows at one slot only. -/
theorem replica_eq_set {p q : Population} {h : Handle}
    {known : Option (HostId × (ComponentId → Bool))} (hh : q.replica h = known)
    (hs : ∀ j, j ≠ h → j.slot = h.slot → q.replica j = p.replica j)
    (he : ∀ i, i ≠ h.slot → q.entryAt? i = p.entryAt? i)
    (hr : ∀ i, i ≠ h.slot → q.rowAt? i = p.rowAt? i) :
    q.replica = p.replica.set h known := by
  funext j
  by_cases hj : j = h
  · rw [hj, Replica.set_self, hh]
  · rw [Replica.set_of_ne _ hj]
    by_cases hslot : j.slot = h.slot
    · exact hs j hj hslot
    · exact replica_congr (he _ hslot) (hr _ hslot)

section Changes

variable {p q : Population}

theorem Alike.replica (ha : Alike p q) (hp : p.Consistent) : q.replica = p.replica := by
  funext h
  cases he : p.entryAt? h.slot with
  | none =>
    have hd := (ha.entry_eq_none _).mpr he
    rw [replica_of_none (by simp [hd]), replica_of_none (by simp [he])]
  | some e =>
    obtain ⟨d, hd, hdh, hdhost, -⟩ := ha.symm_entry_of he
    have hslot := hp.placed he
    by_cases hh : h = e.handle
    · subst hh
      obtain ⟨row, hr, -⟩ := hp.rowAt?_of_entryAt? he
      obtain ⟨row', hr', hrow⟩ := ha.symm_row_of hr
      rw [hp.replica_of_entryAt? he hr]
      rw [← hdh] at hd hr' ⊢
      rw [(ha.consistent hp).replica_of_entryAt? hd hr', hdhost,
        show row'.contains = row.contains from funext hrow.contains]
    · have hold : p.replica h = none := replica_of_ne (hslot.symm ▸ he) hslot.symm hh
      rw [← hdh] at hslot hh
      rw [hold]
      exact replica_of_ne (hslot.symm ▸ hd) hslot.symm hh

theorem Attached.replay {h host cells row degraded}
    (ha : Attached p h host cells row degraded q) (hp : p.Consistent)
    (hcap : q.capacity ≤ 2 ^ 32) :
    p.replica.replay (.entityCreated h host.id :: cells.map fun c => .componentAdded h c.1 c.2) =
      some q.replica := by
  have hfree := hp.entryAt?_of_issued (ha.allocator_issued hp hcap)
  have hentry : q.entryAt? h.slot = some ⟨h, host, .bound, degraded⟩ := by
    rw [ha.entries, if_pos rfl]
  have hnone : ∀ j, j.slot = h.slot → p.replica j = none := fun j hj =>
    replica_of_none (by simp [hj, hfree])
  have hcontains : row.contains = fun j => decide (j ∈ cells.map Prod.fst) || false := by
    funext j
    rw [Bool.or_false, Bool.eq_iff_iff, decide_eq_true_iff, Row.contains, Option.isSome_iff_exists]
    simp only [ha.cells, List.mem_map]
    constructor
    · rintro ⟨_, v, hv, -⟩
      exact ⟨(j, v), hv, rfl⟩
    · rintro ⟨⟨_, v⟩, hv, rfl⟩
      exact ⟨_, v, hv, rfl⟩
  have hq : q.replica h = some (host.id, row.contains) :=
    Consistent.replica_of_entryAt? (e := ⟨h, host, .bound, degraded⟩) (ha.consistent hp hcap)
      hentry (by rw [ha.rows, if_pos rfl])
  have hcreated : p.replica.apply (.entityCreated h host.id) =
      some (p.replica.set h (some (host.id, fun _ => false))) := by
    simp [Replica.apply, hnone h rfl]
  have hadded := Replica.replay_added cells ha.distinct
    (p.replica.set_self h (some (host.id, fun _ => false))) (by simp)
  rw [Replica.replay_cons, hcreated, Option.bind_some, hadded, Replica.set_set, ← hcontains]
  refine congrArg some (replica_eq_set hq (fun j hj hs => ?_) (fun i hi => ?_) fun i hi => ?_).symm
  · rw [hnone j hs]
    exact replica_of_ne (e := ⟨h, host, .bound, degraded⟩) hentry hs hj
  · rw [ha.entries, if_neg hi]
  · rw [ha.rows, if_neg hi]

theorem Detached.replay {e row} (hd : Detached p e row q) (hp : p.Consistent) :
    p.replica.replay [.entityDestroying e.handle e.host.id row.snapshot] = some q.replica := by
  have hknown := hp.replica_of_entryAt? hd.found hd.present
  have hgone : ∀ j, j.slot = e.handle.slot → q.replica j = none := fun j hj =>
    replica_of_none (by simp [hd.entries, hj])
  rw [Replica.replay_singleton]
  simp only [Replica.apply, hknown, ↓reduceIte]
  refine congrArg some (replica_eq_set (hgone _ rfl) (fun j hj hs => ?_) (fun i hi => ?_)
    fun i hi => ?_).symm
  · rw [hgone j hs, replica_of_ne hd.found hs hj]
  · rw [hd.entries, if_neg hi]
  · rw [hd.rows, if_neg hi]

theorem Reshaped.replica {h row row'} (hs : Reshaped p h row row' q) (hp : p.Consistent) :
    ∃ host, p.replica h = some (host, row.contains) ∧
      q.replica = p.replica.set h (some (host, row'.contains)) := by
  obtain ⟨e, hf, -⟩ := Registry.isBound_iff.mp hs.found
  obtain ⟨he, rfl⟩ := Registry.find?_eq_some_iff.mp hf
  have hentry : ∀ i, q.entryAt? i = p.entryAt? i := fun i => by rw [entryAt?, hs.registry]; rfl
  have hq : q.replica e.handle = some (e.host.id, row'.contains) :=
    (hs.consistent hp).replica_of_entryAt? ((hentry _).trans he) (by rw [hs.rows, if_pos rfl])
  refine ⟨e.host.id, hp.replica_of_entryAt? he hs.present_slot.1,
    replica_eq_set hq (fun j hj hslot => ?_) (fun i _ => hentry i) fun i hi => ?_⟩
  · rw [replica_of_ne he hslot hj]
    exact replica_of_ne ((hentry _).trans he) hslot hj
  · rw [hs.rows, if_neg hi]

/-- A change raises the signals that take the one replica to the other. -/
theorem Change.replay {ss : List Signal} (hc : Change p ss q) (hp : p.Consistent)
    (hcap : q.capacity ≤ 2 ^ 32) : p.replica.replay ss = some q.replica := by
  cases hc with
  | quiet ha => exact congrArg some (ha.replica hp).symm
  | attach ha => exact ha.replay hp hcap
  | detach hd => exact hd.replay hp
  | add hs hnew =>
    obtain ⟨host, hknown, hq⟩ := hs.replica hp
    rw [Replica.replay_singleton]
    simp only [Replica.apply, hknown, hnew, Bool.false_eq_true, ↓reduceIte, hq]
    refine congrArg (fun f => some (p.replica.set _ (some (host, f)))) (funext fun j => ?_)
    exact (Row.contains_put _ _ _ _).symm
  | remove hs hv =>
    obtain ⟨host, hknown, hq⟩ := hs.replica hp
    have hin := Row.contains_of_value? hv
    rw [Replica.replay_singleton]
    simp only [Replica.apply, hknown, hin, ↓reduceIte, hq]
    refine congrArg (fun f => some (p.replica.set _ (some (host, f)))) (funext fun j => ?_)
    exact (Row.contains_erase _ _ _).symm

end Changes

/-- So does a series of changes. -/
theorem Trace.replay {p q : Population} {es : List Raised} (ht : Trace p es q)
    (hp : p.Consistent) (hcap : q.capacity ≤ 2 ^ 32) :
    p.replica.replay (es.map Raised.signal) = some q.replica := by
  induction ht with
  | nil => rfl
  | cons hc ht ih =>
    have hmid := Nat.le_trans ht.capacity_le hcap
    rw [List.map_append, map_signal_raised, Replica.replay_append, hc.replay hp hmid,
      Option.bind_some, ih (hc.consistent hmid hp) hcap]

end Population

/-! ## What signals carry -/

/-- What a signal carries is what the world held right before or after it was raised : a new
component the value that it began with, a removed one the value that it had last, and the end
of an entity all its components in order of their numbers. -/
def Raised.Faithful (r : Raised) : Prop :=
  match r.signal with
  | .entityCreated h _ => r.before.row? h = none ∧ (r.after.row? h).isSome = true
  | .componentAdded h id value =>
    r.before.value? h id = none ∧
      ((r.after.row? h).bind fun row => row.cell? id) = some (Cell.agreed value)
  | .componentRemoved h id value =>
    r.before.value? h id = some value ∧ r.after.value? h id = none
  | .entityDestroying h _ components =>
    components.Pairwise (fun a b => a.1.number < b.1.number) ∧
      (∀ id value, (id, value) ∈ components ↔ r.before.value? h id = some value) ∧
      r.after.row? h = none

namespace Population

variable {p q : Population}

theorem Attached.faithful {h host cells row degraded}
    (ha : Attached p h host cells row degraded q) (hp : p.Consistent)
    (hcap : q.capacity ≤ 2 ^ 32) :
    ∀ r ∈ raised p q (.entityCreated h host.id :: cells.map fun c => .componentAdded h c.1 c.2),
      r.Faithful := by
  have hfree := hp.rowAt?_eq_none (hp.entryAt?_of_issued (ha.allocator_issued hp hcap))
  have hbefore : p.world.row? h = none := by
    rw [World.row?, show p.world.rows.get? h.slot = none from hfree, Option.filter_none]
  have hafter : q.world.row? h = some row :=
    World.row?_eq_some_iff.mpr ⟨(ha.rows h.slot).trans (if_pos rfl), ha.handle⟩
  intro r hr
  obtain ⟨s, hs, rfl⟩ := List.mem_map.mp hr
  rcases List.mem_cons.mp hs with rfl | hs
  · exact ⟨hbefore, by rw [hafter]; rfl⟩
  · obtain ⟨c, hc, rfl⟩ := List.mem_map.mp hs
    refine ⟨by rw [World.value?, hbefore, Option.bind_none], ?_⟩
    rw [hafter, Option.bind_some]
    exact (ha.cells c.1 _).mpr ⟨c.2, hc, rfl⟩

theorem Detached.faithful {e row} (hd : Detached p e row q) (hp : p.Consistent) :
    Raised.Faithful ⟨.entityDestroying e.handle e.host.id row.snapshot, p.world, q.world⟩ := by
  obtain ⟨row', hr', hh⟩ := hp.rowAt?_of_entryAt? hd.found
  obtain rfl := Option.some.inj (hd.present.symm.trans hr')
  have hbefore : p.world.row? e.handle = some row := World.row?_eq_some_iff.mpr ⟨hr', hh⟩
  have hasc := hp.ascending hr'
  refine ⟨Row.pairwise_snapshot hasc, fun id value => ?_, ?_⟩
  · rw [Row.mem_snapshot_iff hasc, World.value?, hbefore, Option.bind_some]
  · rw [World.row?, show q.world.rows.get? e.handle.slot = none from
      (hd.rows _).trans (if_pos rfl), Option.filter_none]

/-- What a change raises carries what the change is about. -/
theorem Change.faithful {ss : List Signal} (hc : Change p ss q) (hp : p.Consistent)
    (hcap : q.capacity ≤ 2 ^ 32) : ∀ r ∈ raised p q ss, r.Faithful := by
  cases hc with
  | quiet ha => simp [raised]
  | attach ha => exact ha.faithful hp hcap
  | detach hd =>
    intro r hr
    rw [List.mem_singleton.mp hr]
    exact hd.faithful hp
  | add hs hnew =>
    intro r hr
    rw [List.mem_singleton.mp hr]
    refine ⟨?_, ?_⟩
    · rw [World.value?, hs.present, Option.bind_some, Row.value?]
      simpa [Row.contains] using hnew
    · rw [World.row?_eq_some_iff.mpr ⟨(hs.rows _).trans (if_pos rfl), hs.handle⟩,
        Option.bind_some, Row.cell?_insert, if_pos rfl]
  | remove hs hv =>
    intro r hr
    rw [List.mem_singleton.mp hr]
    refine ⟨?_, ?_⟩
    · rw [World.value?, hs.present, Option.bind_some, hv]
    · rw [World.value?, World.row?_eq_some_iff.mpr ⟨(hs.rows _).trans (if_pos rfl), hs.handle⟩,
        Option.bind_some, Row.value?, Row.cell?_erase, if_pos rfl, Option.map_none]

theorem Trace.faithful {es : List Raised} (ht : Trace p es q) (hp : p.Consistent)
    (hcap : q.capacity ≤ 2 ^ 32) : ∀ r ∈ es, r.Faithful := by
  induction ht with
  | nil => simp
  | cons hc ht ih =>
    have hmid := Nat.le_trans ht.capacity_le hcap
    intro r hr
    rcases List.mem_append.mp hr with hr | hr
    · exact hc.faithful hp hmid r hr
    · exact ih (hc.consistent hmid hp) hcap r hr

end Population

/-! ## Runs -/

namespace Coordinator

variable {ο σ : Type} [HostObject ο]

/-- Who is bound, to which host object, and with which components. -/
def replica (c : Coordinator ο σ) : Replica := fun h =>
  (c.registry.resolve? h).map fun host => (host.id, fun id => (c.component? h id).isSome)

theorem replica_population (c : Coordinator ο σ) : c.population.replica = c.replica := by
  funext h
  simp only [Population.replica, replica, population, component?]
  cases hb : c.registry.bound h with
  | error error => simp [Registry.resolve?, hb, Except.toOption]
  | ok e => simp [Registry.isBound, hb, Except.toBool]

/-- All that a coordinator ever put into the outbox, in order, replayed from nothing, makes sense
throughout and ends with who is bound now, to which host object, and with which components.
Every signal carries what the world held when it was raised. And all of it was delivered, in
this order, or still waits : nothing is lost or told twice.

As in `sound_run` slot numbers have to last. -/
theorem replay_run (table : Table) (settings : Settings) (surroundings : Surroundings ο σ)
    (journal : Journal) (as : List (Action ο σ))
    (hcap : ((withTable table settings surroundings journal).run
      as).registry.allocator.capacity ≤ 2 ^ 32) :
    let start := withTable table settings surroundings journal
    Replica.empty.replay ((start.history as).map Raised.signal) =
        some (start.run as).replica ∧
      (∀ r ∈ start.history as, r.Faithful) ∧
      (start.history as).map Raised.signal =
        start.deliveries as ++ (start.run as).outbox.toList := by
  intro start
  have ht := (evolves_run start as).trace hcap Population.consistent_empty
  refine ⟨?_, ht.faithful Population.consistent_empty hcap, ?_⟩
  · rw [← replica_population]
    exact ht.replay Population.consistent_empty hcap
  · simpa [start, withTable] using outbox_run start as

/-- A component is added beside the one that binding fills, and the entity torn down. -/
theorem replay_run_teardown :
    let as : List (Action PropertyBag Unit) := [.bind ⟨⟨7⟩, 0⟩,
      .addComponent ⟨0, 0⟩ ⟨1⟩ (.bool true), .dispatch, .unbind ⟨0, 0⟩]
    (sample.run as).registry.allocator.capacity ≤ 2 ^ 32 ∧
      Replica.empty.replay [.entityCreated ⟨0, 0⟩ ⟨7⟩, .componentAdded ⟨0, 0⟩ ⟨0⟩ (.int 3),
        .componentAdded ⟨0, 0⟩ ⟨1⟩ (.bool true),
        .entityDestroying ⟨0, 0⟩ ⟨7⟩ [(⟨0⟩, .int 3), (⟨1⟩, .bool true)]] =
          some (sample.run as).replica :=
  ⟨by decide, (replay_run sample.table sample.settings sample.surroundings sample.journal
    [.bind ⟨⟨7⟩, 0⟩, .addComponent ⟨0, 0⟩ ⟨1⟩ (.bool true), .dispatch, .unbind ⟨0, 0⟩]
    (by decide)).1⟩

end Coordinator

end Tether
